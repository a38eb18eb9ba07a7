import OpenApiTypings.Text.Quoted

/-!
# Status codes of responses

Responses are declared by status code.  Codes that are numbers come first, in the
order of their values; other codes, such as `default` and `4XX`, follow as texts.
-/

namespace OpenApiTypings.Status

def digitsValue (digits : List Char) : Nat :=
  digits.foldl (fun n c => n * 10 + (c.toNat - 0x30)) 0

/-- The number of a code: decimal digits alone, with a value of at most 64 bits. -/
def number? (code : String) : Option Nat :=
  let digits := code.toList
  if digits.isEmpty || !digits.all Char.isDigit then none
  else
    let value := digitsValue digits
    if value < Nat.pow 2 64 then some value else none

/-- Texts by code point. -/
def compareTexts (a b : String) : Ordering :=
  if a < b then .lt else if a = b then .eq else .gt

/-- The order of codes: numbers before texts, numbers by value and then as texts. -/
def compare (a b : String) : Ordering :=
  match number? a, number? b with
  | some x, some y => (Ord.compare x y).then (compareTexts a b)
  | some _, none => .lt
  | none, some _ => .gt
  | none, none => compareTexts a b

/-- Puts an entry in front of the first one whose code is not smaller. -/
def insertByCode (entry : String × α) : List (String × α) → List (String × α)
  | [] => [entry]
  | other :: rest =>
      if compare other.1 entry.1 = .lt then other :: insertByCode entry rest
      else entry :: other :: rest

/-- The entries in the order of their codes. -/
def sortByCode (entries : List (String × α)) : List (String × α) :=
  entries.foldr insertByCode []

/-- The key of a code: numbers and `default` are written bare. -/
def key (code : String) : String :=
  if (number? code).isSome || code = "default" then code else Text.quote code

end OpenApiTypings.Status
