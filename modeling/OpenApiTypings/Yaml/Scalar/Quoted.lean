import OpenApiTypings.Yaml.Scalar.Gap

/-!
# Quoted scalars

Between single quotes, only the quote itself is written specially, by doubling it.
Between double quotes, a backslash gives characters by letters and numbers, and at
the end of a line joins it to the next one without a space.
-/

namespace OpenApiTypings.Yaml

def hexDigitValue? (c : Char) : Option Nat :=
  if c.isDigit then some (c.toNat - 0x30)
  else if 'a' ≤ c && c ≤ 'f' then some (c.toNat - 0x61 + 10)
  else if 'A' ≤ c && c ≤ 'F' then some (c.toNat - 0x41 + 10)
  else none

def hexValue? (digits : List Char) : Option Nat :=
  digits.foldlM (fun n c => (hexDigitValue? c).map (n * 16 + ·)) 0

/-- The code of the character that a letter stands for behind a backslash. -/
def letterEscape? : Char → Option Nat
  | '0' => some 0x0
  | 'a' => some 0x7
  | 'b' => some 0x8
  | 't' => some 0x9
  | '\t' => some 0x9
  | 'n' => some 0xA
  | 'v' => some 0xB
  | 'f' => some 0xC
  | 'r' => some 0xD
  | 'e' => some 0x1B
  | ' ' => some 0x20
  | '"' => some 0x22
  | '/' => some 0x2F
  | '\\' => some 0x5C
  | 'N' => some 0x85
  | '_' => some 0xA0
  | 'L' => some 0x2028
  | 'P' => some 0x2029
  | _ => none

/-- How many digits follow a letter that introduces a number. -/
def numberEscapeWidth? : Char → Option Nat
  | 'x' => some 2
  | 'u' => some 4
  | 'U' => some 8
  | _ => none

/-- The character with a code, unless the code is none of a character. -/
def charOfCode? (n : Nat) : Option Char :=
  if n.isValidChar then some (Char.ofNat n) else none

/-- The character of an escape, from the letter behind its backslash on. -/
def readEscape (pos : Cursor) : Except Fault (Char × Cursor) :=
  match pos.rest with
  | [] => .error .badToken
  | letter :: digits =>
      match letterEscape? letter, numberEscapeWidth? letter with
      | some code, _ => .ok (Char.ofNat code, pos.advance 1)
      | none, none => .error .badToken
      | none, some width =>
          let number := digits.take width
          if number.length < width then .error .badToken
          else
            match (hexValue? number).bind charOfCode? with
            | some c => .ok (c, pos.advance (1 + width))
            | none => .error .badToken

inductive QuotedItem where
  | finish
  | char (c : Char) (next : Cursor)
  | gap (start : Gap) (next : Cursor)

def quotedItem (double : Bool) (pos : Cursor) : Except Fault QuotedItem :=
  if pos.atDocumentMarker then .error .badToken
  else
    match double, pos.rest with
    | _, [] => .error .badToken
    | false, '\'' :: '\'' :: _ => .ok (.char '\'' (pos.advance 2))
    | false, '\'' :: _ => .ok .finish
    | true, '"' :: _ => .ok .finish
    | true, '\\' :: c :: _ =>
        if isBreak c then
          .ok (.gap ⟨[], [[]]⟩ (pos.advance 1).takeBreak.2)
        else do
          let (meaning, next) ← readEscape (pos.advance 1)
          return .char meaning next
    | true, ['\\'] => .error .badToken
    | _, c :: _ => if isGap c then .ok (.gap {} pos) else .ok (.char c (pos.advance 1))

/-- The characters of a quoted scalar up to its closing quote, newest first. -/
def readQuotedChars (double : Bool) :
    Nat → List Char → Cursor → Except Fault (List Char × Cursor)
  | 0, _, _ => .error .badToken
  | bound + 1, acc, pos => do
      match ← quotedItem double pos with
      | .finish => return (acc, pos.advance 1)
      | .char c next => readQuotedChars double bound (c :: acc) next
      | .gap start next =>
          let (gap, after) ← readGap 0 (next.size + 1) start next
          readQuotedChars double bound (gap.text.reverse ++ acc) after

def readQuoted (double : Bool) (pos : Cursor) : Except Fault (String × Cursor) := do
  let (chars, after) ← readQuotedChars double (pos.size + 1) [] (pos.advance 1)
  return (String.ofList chars.reverse, after)

end OpenApiTypings.Yaml
