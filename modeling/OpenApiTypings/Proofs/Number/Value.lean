import OpenApiTypings.Declarations.Status
import OpenApiTypings.Number.Basic
import Mathlib.Data.List.TakeWhile
import Mathlib.Data.Rat.Cast.Defs

/-!
# The values of numbers

A number of a document stands for a rational number, and so does a decimal text.  The
literal of an integer is a decimal text with the value of the integer.
-/

namespace OpenApiTypings

/-! ### Numbers of a document -/

/-- The rational number of a floating-point number. -/
def Binary64.value (x : Binary64) : ℚ :=
  let magnitude : ℚ := (x.toRatio.1 : ℚ) / (x.toRatio.2 : ℚ)
  if x.negative then -magnitude else magnitude

/-- The rational number of a number of a document. -/
def Number.value : Number → ℚ
  | .integer n => n
  | .double x => x.value

theorem Number.toList_literal_negSucc (n : Nat) :
    (Number.literal (.integer (Int.negSucc n))).toList = '-' :: Nat.toDigits 10 (n + 1) := by
  show (Int.repr (Int.negSucc n)).toList = _
  simp [Int.repr, Nat.toList_repr]

/-! ### Decimal texts -/

namespace Text

/-- The natural number of one or more decimal digits. -/
def readDigits? (digits : List Char) : Option Nat :=
  if !digits.isEmpty && digits.all Char.isDigit then some (Status.digitsValue digits) else none

/-- The value of digits with or without a point and further digits. -/
def readUnsigned? (text : List Char) : Option ℚ :=
  match text.dropWhile Char.isDigit with
  | [] => (readDigits? text).map fun n => (n : ℚ)
  | '.' :: fraction => do
      let whole ← readDigits? (text.takeWhile Char.isDigit)
      let part ← readDigits? fraction
      return (whole : ℚ) + (part : ℚ) / (Nat.pow 10 fraction.length : Nat)
  | _ => none

/-- The value of a decimal text. -/
def readDecimal? (text : String) : Option ℚ :=
  match text.toList with
  | '-' :: rest => (readUnsigned? rest).map fun q => -q
  | unsigned => readUnsigned? unsigned

theorem digitsValue_toDigits (n : Nat) : Status.digitsValue (Nat.toDigits 10 n) = n := by
  have hread : Nat.ofDigitChars 10 (Nat.toDigits 10 n) 0 = n :=
    Nat.ofDigitChars_toDigits (by decide) (by decide)
  rw [Nat.ofDigitChars_eq_foldl] at hread
  unfold Status.digitsValue
  simpa [Nat.mul_comm] using hread

theorem digitChar_toNat_sub {c : Char} (hc : c.isDigit = true) :
    c.toNat - 0x30 < 10 ∧ (c.toNat - 0x30).digitChar = c := by
  have hrange : 0x30 ≤ c.toNat ∧ c.toNat ≤ 0x39 := by
    simpa [Char.isDigit, UInt32.le_iff_toNat_le] using hc
  have hlt : c.toNat - 0x30 < 10 := by omega
  refine ⟨hlt, Char.toNat_inj.mp ?_⟩
  rw [Nat.toNat_digitChar_of_lt_ten hlt]
  omega

/-- Digits read behind a number above zero stand behind its digits. -/
theorem toDigits_foldl {digits : List Char} (hdigits : ∀ c ∈ digits, c.isDigit = true) {n : Nat}
    (hn : 0 < n) : Nat.toDigits 10 (digits.foldl (fun n c => n * 10 + (c.toNat - 0x30)) n) =
      Nat.toDigits 10 n ++ digits := by
  induction digits generalizing n with
  | nil => simp
  | cons c rest ih =>
    obtain ⟨hc, hrest⟩ := List.forall_mem_cons.mp hdigits
    obtain ⟨hlt, hchar⟩ := digitChar_toNat_sub hc
    have hstep := Nat.toDigits_append_toDigits (b := 10) (by decide) hn hlt
    rw [Nat.toDigits_of_lt_base hlt, hchar, Nat.mul_comm] at hstep
    rw [List.foldl_cons, ih hrest (by omega), ← hstep, List.append_assoc, List.singleton_append]

/-- Digits that do not begin with a zero are those of their value. -/
theorem toDigits_digitsValue {c : Char} {rest : List Char}
    (hdigits : ∀ d ∈ c :: rest, d.isDigit = true) (hzero : c ≠ '0') :
    Nat.toDigits 10 (Status.digitsValue (c :: rest)) = c :: rest := by
  obtain ⟨hc, hrest⟩ := List.forall_mem_cons.mp hdigits
  obtain ⟨hlt, hchar⟩ := digitChar_toNat_sub hc
  have hpos : c.toNat - 0x30 ≠ 0 := by rwa [Ne, ← Nat.digitChar_eq_zero, hchar]
  have hread := toDigits_foldl hrest (Nat.pos_of_ne_zero hpos)
  rw [Nat.toDigits_of_lt_base hlt, hchar] at hread
  simpa [Status.digitsValue] using hread

/-- The digits of a number other than zero do not begin with a zero. -/
theorem head?_toDigits {n : Nat} (hn : n ≠ 0) : (Nat.toDigits 10 n).head? ≠ some '0' := by
  induction n using Nat.strongRecOn with
  | ind n ih =>
    rcases Nat.lt_or_ge n 10 with hlt | hge
    · rw [Nat.toDigits_of_lt_base hlt]
      simpa using hn
    · have hfront := ih (n / 10) (by omega) (by omega)
      have hne : Nat.toDigits 10 (n / 10) ≠ [] :=
        List.ne_nil_of_length_pos Nat.length_toDigits_pos
      obtain ⟨c, rest, hcons⟩ := List.exists_cons_of_ne_nil hne
      rw [Nat.toDigits_of_base_le (by decide) hge, hcons]
      rwa [hcons] at hfront

theorem all_isDigit_toDigits (n : Nat) : (Nat.toDigits 10 n).all Char.isDigit = true :=
  List.all_eq_true.mpr fun _ hc => Nat.isDigit_of_mem_toDigits (by decide) (by decide) hc

theorem readUnsigned?_toDigits (n : Nat) :
    readUnsigned? (Nat.toDigits 10 n) = some (n : ℚ) := by
  have hall := all_isDigit_toDigits n
  have hrest : (Nat.toDigits 10 n).dropWhile Char.isDigit = [] :=
    List.dropWhile_eq_nil_iff.mpr (List.all_eq_true.mp hall)
  have hne : (Nat.toDigits 10 n).isEmpty = false := by
    rw [List.isEmpty_eq_false_iff]
    exact List.ne_nil_of_length_pos Nat.length_toDigits_pos
  simp [readUnsigned?, hrest, readDigits?, hne, hall, digitsValue_toDigits]

/-- A decimal text of digits is not taken for one with a sign. -/
theorem readDecimal?_repr (n : Nat) : readDecimal? (Nat.repr n) = some (n : ℚ) := by
  have hlist : (Nat.repr n).toList = Nat.toDigits 10 n := Nat.toList_repr
  unfold readDecimal?
  rw [hlist]
  split
  · rename_i rest heq
    have hdigit := List.all_eq_true.mp (all_isDigit_toDigits n) '-' (heq ▸ List.mem_cons_self ..)
    exact absurd hdigit (by decide)
  · exact readUnsigned?_toDigits n

/-- Digits are read as a number. -/
theorem exists_readDecimal?_of_digits {text : String} (hne : text ≠ "")
    (hdigits : ∀ c ∈ text.toList, c.isDigit = true) : ∃ q, readDecimal? text = some q := by
  have hall : text.toList.all Char.isDigit = true := List.all_eq_true.mpr hdigits
  have hrest : text.toList.dropWhile Char.isDigit = [] := List.dropWhile_eq_nil_iff.mpr hdigits
  have hlist : text.toList.isEmpty = false := by
    rw [List.isEmpty_eq_false_iff]
    exact fun hnil => hne (String.toList_eq_nil_iff.mp hnil)
  unfold readDecimal?
  split
  · rename_i rest heq
    exact absurd (hdigits '-' (heq ▸ List.mem_cons_self)) (by decide)
  · refine ⟨(Status.digitsValue text.toList : ℚ), ?_⟩
    simp [readUnsigned?, hrest, readDigits?, hlist, hall]

/-- The literal of an integer has the value of the integer. -/
theorem readDecimal?_integer (n : Int) :
    readDecimal? (Number.literal (.integer n)) = some (n : ℚ) := by
  cases n with
  | ofNat n => exact readDecimal?_repr n
  | negSucc n =>
    rw [readDecimal?, Number.toList_literal_negSucc]
    simp only [readUnsigned?_toDigits, Option.map_some]
    rw [Int.cast_negSucc]

end Text

end OpenApiTypings
