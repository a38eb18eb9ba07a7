import OpenApiTypings.Number.Basic
import OpenApiTypings.Yaml.Fault
import OpenApiTypings.Yaml.Token

/-!
# What plain scalars stand for

A scalar without quotes is `null`, a truth value, a number, or else its own text.
Integers may be written with a sign and with the bases 16, 8 and 2; digits with a
leading zero are no number.  An integer that fits neither the signed nor the unsigned
numbers of 64 bits is refused, unless it is so large that it is read as a
floating-point number.
-/

namespace OpenApiTypings.Yaml

inductive Scalar where
  | null
  | bool (b : Bool)
  | number (n : Number)
  | infinity (negative : Bool)
  | notANumber
  | text (s : String)
  deriving DecidableEq, Repr

namespace Scalar

def isNullText (s : String) : Bool :=
  ["null", "Null", "NULL", "~"].contains s

def boolOfText? (s : String) : Option Bool :=
  if ["true", "True", "TRUE"].contains s then some true
  else if ["false", "False", "FALSE"].contains s then some false
  else none

/-! ### Integers -/

def digitIn? (base : Nat) (c : Char) : Option Nat :=
  let value? :=
    if c.isDigit then some (c.toNat - 0x30)
    else if 'a' ≤ c && c ≤ 'f' then some (c.toNat - 0x61 + 10)
    else if 'A' ≤ c && c ≤ 'F' then some (c.toNat - 0x41 + 10)
    else none
  value?.filter (· < base)

/-- The value of at least one digit in a base. -/
def digitsIn? (base : Nat) (digits : List Char) : Option Nat :=
  if digits.isEmpty then none
  else digits.foldlM (fun n c => (digitIn? base c).map (n * base + ·)) 0

/-- Several digits of which the first one is zero. -/
def hasLeadingZero : List Char → Bool
  | '0' :: c :: rest => (c :: rest).all Char.isDigit
  | _ => false

def magnitude? : List Char → Option Nat
  | '0' :: 'x' :: digits => digitsIn? 16 digits
  | '0' :: 'o' :: digits => digitsIn? 8 digits
  | '0' :: 'b' :: digits => digitsIn? 2 digits
  | digits => if hasLeadingZero digits then none else digitsIn? 10 digits

def splitSign : List Char → Bool × List Char
  | '-' :: rest => (true, rest)
  | '+' :: rest => (false, rest)
  | digits => (false, digits)

/-- The integer that a text stands for, if it stands for one: the integer must fit 64
bits, and one beyond 128 bits does not count as an integer. -/
def integer? (chars : List Char) : Except Fault (Option Int) :=
  let (negative, digits) := splitSign chars
  match magnitude? digits with
  | none => .ok none
  | some n =>
      if negative then
        if n ≤ Nat.pow 2 63 then .ok (some (-(n : Int)))
        else if n ≤ Nat.pow 2 127 then .error .integerOutOfRange
        else .ok none
      else if n < Nat.pow 2 64 then .ok (some n)
      else if n < Nat.pow 2 128 then .error .integerOutOfRange
      else .ok none

/-! ### Floating-point numbers -/

/-- The exponent behind the digits of a number: zero when there is none. -/
def exponent? : List Char → Option Int
  | [] => some 0
  | c :: rest =>
      if c = 'e' || c = 'E' then
        let (negative, digits) := splitSign rest
        (digitsIn? 10 digits).map fun n => if negative then -(n : Int) else n
      else none

def decimal? (negative : Bool) (chars : List Char) : Option Binary64 :=
  let whole := chars.takeWhile Char.isDigit
  let behind := chars.dropWhile Char.isDigit
  let (fraction, tail) :=
    match behind with
    | '.' :: more => (more.takeWhile Char.isDigit, more.dropWhile Char.isDigit)
    | _ => ([], behind)
  match digitsIn? 10 (whole ++ fraction), exponent? tail with
  | some digits, some e => Binary64.ofDecimal negative digits (e - fraction.length)
  | _, _ => none

def float? (chars : List Char) : Option Scalar :=
  let (negative, unsigned) := splitSign chars
  if [".inf", ".Inf", ".INF"].contains (String.ofList unsigned) then
    some (.infinity negative)
  else if [".nan", ".NaN", ".NAN"].contains (String.ofList chars) then some .notANumber
  else (decimal? negative unsigned).map fun x => .number (.double x)

/-! ### Resolution -/

def ofPlain (s : String) : Except Fault Scalar := do
  if s.isEmpty || isNullText s then return .null
  else
    match boolOfText? s with
    | some b => return .bool b
    | none =>
        match ← integer? s.toList with
        | some n => return .number (.integer n)
        | none =>
            if hasLeadingZero (splitSign s.toList).2 then return .text s
            else return (float? s.toList).getD (.text s)

def kindTag (kind : String) : Tag := .ofText ("tag:yaml.org,2002:" ++ kind)

def demand (value : Option Scalar) : Except Fault Scalar :=
  match value with
  | some scalar => .ok scalar
  | none => .error .badScalar

/-- What a scalar with a tag stands for.  The tags of truth values, numbers and `null`
ask for a text of that form.  A tag of the document's own that has no name changes
nothing in a plain scalar, and with any other tag the text stands for itself. -/
def ofTagged (tag : Tag) (s : String) (plain : Bool) : Except Fault Scalar :=
  if tag = kindTag "bool" then demand ((boolOfText? s).map .bool)
  else if tag = kindTag "int" then do
    demand ((← integer? s.toList).map fun n => .number (.integer n))
  else if tag = kindTag "float" then demand (float? s.toList)
  else if tag = kindTag "null" then demand (if isNullText s then some .null else none)
  else if tag.isOwn && plain then ofPlain s
  else .ok (.text s)

end Scalar

end OpenApiTypings.Yaml
