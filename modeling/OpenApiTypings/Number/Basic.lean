import OpenApiTypings.Number.Shortest

/-!
# Numbers of a document

A number of a document is an integer or a binary floating-point number.  It is
written in two ways: as a *literal* of the declarations, where no exponent is ever
used and a whole number has no fraction, and as the *text* of a number that stands
where a string is expected, where a whole floating-point number keeps its `.0` and
an exponent is used for very large and very small numbers.
-/

namespace OpenApiTypings

inductive Number where
  | integer (n : Int)
  | double (x : Binary64)
  deriving DecidableEq, Repr, Inhabited

/-- The decisions that tell two ways of writing a floating-point number apart. -/
structure DecimalLayout where
  /-- Exponents of the leading digit that are written without an exponent; all of
  them when there are no bounds. -/
  positional : Option (Int × Int)
  /-- What follows the digits of a whole number. -/
  wholeSuffix : String
  /-- Which of two equally near shortest decimals is written. -/
  tie : Tie

namespace DecimalLayout

/-- Literals have no exponent and no fraction unless they need one. -/
def literal : DecimalLayout := ⟨none, "", .up⟩

/-- Texts use an exponent from `10 ^ 16` on and below `10 ^ -5`, and show by `.0`
that a whole number is a floating-point number. -/
def text : DecimalLayout := ⟨some (-5, 15), ".0", .toEven⟩

def zeros (n : Nat) : String :=
  String.ofList (List.replicate n '0')

def significantDigits (n : Nat) : List Char :=
  ((Nat.repr n).toList.reverse.dropWhile (· = '0')).reverse

/-- Digits with the point after the digit that stands for `10 ^ 0`, where `lead` is
the exponent of the first digit. -/
def placePoint (wholeSuffix : String) (digits : List Char) (lead : Int) : String :=
  if lead < 0 then
    "0." ++ zeros (-lead - 1).toNat ++ String.ofList digits
  else
    let whole := lead.toNat + 1
    if digits.length ≤ whole then
      String.ofList digits ++ zeros (whole - digits.length) ++ wholeSuffix
    else
      String.ofList (digits.take whole) ++ "." ++ String.ofList (digits.drop whole)

/-- Digits in the form with an exponent, which always carries a sign. -/
def withExponent (digits : List Char) (lead : Int) : String :=
  let mantissa :=
    match digits with
    | [] => "0"
    | [d] => String.ofList [d]
    | d :: rest => String.ofList (d :: '.' :: rest)
  let sign := if lead < 0 then "-" else "+"
  mantissa ++ "e" ++ sign ++ Nat.repr lead.natAbs

def render (layout : DecimalLayout) (x : Binary64) : String :=
  let sign := if x.negative then "-" else ""
  if x.isZero then sign ++ "0" ++ layout.wholeSuffix
  else
    let decimal := x.shortest layout.tie
    let digits := significantDigits decimal.digits
    let lead : Int := decimal.exponent + (Nat.repr decimal.digits).length - 1
    match layout.positional with
    | none => sign ++ placePoint layout.wholeSuffix digits lead
    | some (low, high) =>
        if low ≤ lead ∧ lead ≤ high then
          sign ++ placePoint layout.wholeSuffix digits lead
        else sign ++ withExponent digits lead

end DecimalLayout

namespace Number

def literal : Number → String
  | .integer n => toString n
  | .double x => DecimalLayout.literal.render x

/-- A number as the text it has where a string is expected. -/
def text : Number → String
  | .integer n => toString n
  | .double x => DecimalLayout.text.render x

end Number

end OpenApiTypings
