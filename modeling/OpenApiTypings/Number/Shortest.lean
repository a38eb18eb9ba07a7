import OpenApiTypings.Number.Binary64

/-!
# The shortest decimal of a binary number

Among the decimals that read back as a given binary number, the one with the
fewest digits is chosen, and of those the nearest.  The decimals that read back
form an interval around the number; its ends belong to it when the significand is
even.  For one digit after another the two neighbours of the number on that decimal
grid are tried, so the first grid with a hit gives the fewest digits.
-/

namespace OpenApiTypings

/-- Which of two equally near decimals is taken. -/
inductive Tie where
  | toEven
  | up
  deriving DecidableEq, Repr

structure Decimal where
  digits : Nat
  exponent : Int
  deriving DecidableEq, Repr

namespace Binary64

/-- Compares `a * 10 ^ k` with `b * 2 ^ e`. -/
def compareScaled (a : Nat) (k : Int) (b : Nat) (e : Int) : Ordering :=
  compare (a * Nat.pow 10 k.toNat * Nat.pow 2 (-e).toNat)
    (b * Nat.pow 2 e.toNat * Nat.pow 10 (-k).toNat)

/-- Twice the distance to the lower neighbour is `2 ^ exponent`, or half of that
when the number is a power of two with a finer grid below it.  In quarters of the
last place the interval ends lie at these offsets. -/
def lowerOffset (x : Binary64) : Nat :=
  if x.significand = Nat.pow 2 52 ∧ minExponent < x.exponent then 1 else 2

/-- The decimal `digits * 10 ^ k` reads back as the magnitude of `x`. -/
def readsBack (x : Binary64) (digits : Nat) (k : Int) : Bool :=
  let low := compareScaled digits k (4 * x.significand - x.lowerOffset) (x.exponent - 2)
  let high := compareScaled digits k (4 * x.significand + 2) (x.exponent - 2)
  if x.significand % 2 = 0 then low ≠ .lt && high ≠ .gt
  else low = .gt && high = .lt

/-- The exponent of the leading decimal digit of a number that is not zero. -/
def leadingExponent (x : Binary64) : Int :=
  let guess := ((x.significand.log2 : Int) + x.exponent) * 30103 / 100000
  if compareScaled 1 (guess + 1) x.significand x.exponent = .gt then guess
  else guess + 1

/-- The largest multiple of `10 ^ k` that is not above the magnitude. -/
def floorOnGrid (x : Binary64) (k : Int) : Nat :=
  (x.significand * Nat.pow 2 x.exponent.toNat * Nat.pow 10 (-k).toNat) /
    (Nat.pow 10 k.toNat * Nat.pow 2 (-x.exponent).toNat)

/-- The decimal with `count` digits that reads back and lies nearest, if any does. -/
def onGrid (tie : Tie) (x : Binary64) (count : Nat) : Option Decimal :=
  let k := x.leadingExponent - count + 1
  let low := x.floorOnGrid k
  match x.readsBack low k, x.readsBack (low + 1) k with
  | false, false => none
  | true, false => some ⟨low, k⟩
  | false, true => some ⟨low + 1, k⟩
  | true, true =>
      match compareScaled (2 * low + 1) k (2 * x.significand) x.exponent, tie with
      | .gt, _ => some ⟨low, k⟩
      | .lt, _ => some ⟨low + 1, k⟩
      | .eq, .up => some ⟨low + 1, k⟩
      | .eq, .toEven => if low % 2 = 0 then some ⟨low, k⟩ else some ⟨low + 1, k⟩

def maxDigits : Nat := 17

/-- The shortest decimal that reads back as the magnitude of `x`.  Seventeen digits
always suffice, so the last alternative is never taken for a number of the format. -/
def shortest (tie : Tie) (x : Binary64) : Decimal :=
  ((List.range' 1 maxDigits).findSome? (x.onGrid tie)).getD
    ⟨x.significand, x.exponent⟩

end Binary64

end OpenApiTypings
