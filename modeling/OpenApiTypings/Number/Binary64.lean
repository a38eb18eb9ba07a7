/-!
# Binary floating-point numbers of 64 bits

The finite numbers of the IEEE format `binary64`, as a sign, a significand and an
exponent of two.  Arithmetic is exact arithmetic on fractions of natural numbers
followed by one rounding to the nearest representable number, a tie going to the
even significand; a result that is too large is refused.

No arithmetic of the machine is used, so every number here can be computed with
inside a proof.
-/

namespace OpenApiTypings

/-- The number `± significand * 2 ^ exponent`.  Numbers built by `ofRatio` have a
significand below `2 ^ 53` and an exponent from `-1074` to `971`; the significand
is at least `2 ^ 52` unless the exponent is `-1074`. -/
structure Binary64 where
  negative : Bool
  significand : Nat
  exponent : Int
  deriving DecidableEq, Repr, Inhabited

namespace Binary64

def minExponent : Int := -1074

def maxExponent : Int := 971

/-- The fraction `num / (den * 2 ^ e)` as numerator and denominator. -/
def unscale (num den : Nat) (e : Int) : Nat × Nat :=
  if 0 ≤ e then (num, den * Nat.pow 2 e.toNat) else (num * Nat.pow 2 (-e).toNat, den)

/-- The natural number nearest to `num / den`, a tie going to the even one. -/
def roundToEven (num den : Nat) : Nat :=
  let quotient := num / den
  let remainder := num % den
  if 2 * remainder < den ∨ (2 * remainder = den ∧ quotient % 2 = 0) then quotient
  else quotient + 1

/-- The number nearest to `± num / den`; `none` when its magnitude rounds to more
than the largest number. -/
def ofRatio (negative : Bool) (num den : Nat) : Option Binary64 :=
  if num = 0 then some ⟨negative, 0, minExponent⟩
  else
    let magnitude : Int := (num.log2 : Int) - (den.log2 : Int)
    let low := max (magnitude - 53) minExponent
    let coarse := unscale num den low
    let e := if coarse.1 / coarse.2 < Nat.pow 2 53 then low else low + 1
    let fine := unscale num den e
    let m := roundToEven fine.1 fine.2
    let x : Binary64 :=
      if m = Nat.pow 2 53 then ⟨negative, Nat.pow 2 52, e + 1⟩ else ⟨negative, m, e⟩
    if maxExponent < x.exponent then none else some x

/-- Numerator and denominator of the magnitude. -/
def toRatio (x : Binary64) : Nat × Nat :=
  if 0 ≤ x.exponent then (x.significand * Nat.pow 2 x.exponent.toNat, 1)
  else (x.significand, Nat.pow 2 (-x.exponent).toNat)

def isZero (x : Binary64) : Bool :=
  x.significand = 0

def withSign (x : Binary64) (negative : Bool) : Binary64 :=
  { x with negative }

def ofNat (n : Nat) : Option Binary64 :=
  ofRatio false n 1

def mul (x y : Binary64) : Option Binary64 :=
  ofRatio (x.negative != y.negative) (x.toRatio.1 * y.toRatio.1)
    (x.toRatio.2 * y.toRatio.2)

/-- The quotient, rounded; the divisor is not zero. -/
def div (x y : Binary64) : Option Binary64 :=
  ofRatio (x.negative != y.negative) (x.toRatio.1 * y.toRatio.2)
    (x.toRatio.2 * y.toRatio.1)

/-! ### Reading decimals

There are two ways from decimal digits to a number.  `ofDecimal` rounds once.
`scaled` rounds the digits, then the power of ten, then their product or quotient,
as readers do that take speed over the last bit. -/

/-- How far a decimal exponent may lie from zero before the result is certain to be
zero or too large, given at most that many digits. -/
def decimalReach : Nat := 400

/-- The number nearest to `± digits * 10 ^ e`.  Exponents out of reach are settled
without computing the power of ten. -/
def ofDecimal (negative : Bool) (digits : Nat) (e : Int) : Option Binary64 :=
  let width : Int := (Nat.repr digits).length
  if digits = 0 then ofRatio negative 0 1
  else if decimalReach < width + e then none
  else if width + e < -decimalReach then ofRatio negative 0 1
  else if 0 ≤ e then ofRatio negative (digits * Nat.pow 10 e.toNat) 1
  else ofRatio negative digits (Nat.pow 10 (-e).toNat)

def tenPow (n : Nat) : Option Binary64 :=
  ofNat (Nat.pow 10 n)

/-- The largest power of ten that is representable. -/
def maxTenPow : Nat := 308

/-- Divides by `power` as many times as asked for, stopping at zero. -/
def divideTimes (power : Binary64) : Nat → Binary64 → Option Binary64
  | 0, x => some x
  | n + 1, x => if x.isZero then some x else (x.div power).bind (divideTimes power n)

/-- Scales a number by `10 ^ e` with one rounded operation, after as many divisions
by the largest power of ten as the exponent asks for. -/
def scaleByTen (x : Binary64) (e : Int) : Option Binary64 :=
  if e.natAbs ≤ maxTenPow then do
    let power ← tenPow e.natAbs
    if 0 ≤ e then x.mul power else x.div power
  else if x.isZero then some x
  else if 0 ≤ e then none
  else do
    let steps := (e.natAbs - 1) / maxTenPow
    let largest ← tenPow maxTenPow
    let y ← divideTimes largest steps x
    let power ← tenPow (e.natAbs - steps * maxTenPow)
    y.div power

/-- `± digits * 10 ^ e`, the digits rounded first and scaled after. -/
def scaled (negative : Bool) (digits : Nat) (e : Int) : Option Binary64 := do
  let x ← ofNat digits
  let y ← x.scaleByTen e
  return y.withSign negative

end Binary64

end OpenApiTypings
