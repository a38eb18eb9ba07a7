import Mathlib.Data.Nat.Factorization.Basic
import Mathlib.Tactic.Ring
import OpenApiTypings.Number.Basic

/-!
# Whole numbers as names

A property may be named by a whole number.  Its name is then not the text of its key but that of
the floating-point number nearest to it.

Up to `2 ^ 53` every whole number is a floating-point number, and it is the only whole number
that is read as that.  So no shorter decimal stands for it, and its name has its own digits.
-/

namespace OpenApiTypings

/-- Numbers as names have an exponent from `10 ^ 21` on and below `10 ^ -6`. -/
def DecimalLayout.name : DecimalLayout := ⟨some (-6, 20), "", .toEven⟩

/-- The name of the property whose key is a whole number. -/
def numeralName (n : Nat) : String :=
  match Binary64.ofNat n with
  | some x => DecimalLayout.name.render x
  | none => "Infinity"

/-! ### Decimal digits -/

theorem toDigits_mul_pow {d : Nat} (hd : 0 < d) (k : Nat) :
    Nat.toDigits 10 (d * 10 ^ k) = Nat.toDigits 10 d ++ List.replicate k '0' := by
  induction k with
  | zero => simp
  | succ k ih =>
    have hpos : 0 < d * 10 ^ k := Nat.mul_pos hd (Nat.pow_pos (by decide))
    have hstep := Nat.toDigits_append_toDigits (b := 10) (d := 0) (by decide) hpos (by decide)
    rw [show d * 10 ^ (k + 1) = 10 * (d * 10 ^ k) + 0 by ring, ← hstep, ih, List.append_assoc,
      List.replicate_succ']
    rfl

theorem significantDigits_of_not_dvd {d : Nat} (hd : ¬10 ∣ d) :
    DecimalLayout.significantDigits d = Nat.toDigits 10 d := by
  have hlast : ∃ front c, Nat.toDigits 10 d = front ++ [c] ∧ c ≠ '0' := by
    have hdigit : (d % 10).digitChar ≠ '0' := by
      rw [Ne, Nat.digitChar_eq_zero]
      exact fun hzero => hd (Nat.dvd_of_mod_eq_zero hzero)
    rcases Nat.lt_or_ge d 10 with hlt | hge
    · refine ⟨[], d.digitChar, Nat.toDigits_of_lt_base hlt, ?_⟩
      rwa [Nat.mod_eq_of_lt hlt] at hdigit
    · exact ⟨_, _, Nat.toDigits_of_base_le (by decide) hge, hdigit⟩
  obtain ⟨front, c, htext, hc⟩ := hlast
  rw [DecimalLayout.significantDigits, Nat.toList_repr, htext, List.reverse_append]
  simp [hc]

/-- Behind the last digit of a whole number there are zeros and no point. -/
theorem placePoint_of_le {digits : List Char} {lead : Nat} (hlead : digits.length ≤ lead + 1) :
    DecimalLayout.placePoint "" digits lead =
      String.ofList (digits ++ List.replicate (lead + 1 - digits.length) '0') := by
  have hnonneg : ¬(lead : Int) < 0 := by omega
  unfold DecimalLayout.placePoint
  simp only [hnonneg, if_false, Int.toNat_natCast, hlead, if_true, DecimalLayout.zeros,
    String.append_empty, String.ofList_append]

namespace Binary64

/-- The number is a whole number above zero, and its last place is one or less. -/
structure Whole (x : Binary64) (n : Nat) : Prop where
  pos : 0 < n
  not_negative : x.negative = false
  exponent_le : x.exponent ≤ 0
  significand_eq : x.significand = n * 2 ^ (-x.exponent).toNat
  log_eq : (x.significand.log2 : Int) + x.exponent = n.log2
  log_lt : n.log2 < 53

theorem unscale_of_nonpos (n : Nat) {e : Int} (he : e ≤ 0) :
    unscale n 1 e = (n * 2 ^ (-e).toNat, 1) := by
  unfold unscale
  split
  · obtain rfl : e = 0 := by omega
    simp
  · rfl

theorem roundToEven_one (n : Nat) : roundToEven n 1 = n := by
  simp [roundToEven, Nat.mod_one]

theorem exists_whole {n : Nat} (hpos : 0 < n) (hlt : n < 2 ^ 53) :
    ∃ x, ofNat n = some x ∧ x.Whole n := by
  have hlog : n.log2 < 53 := (Nat.log2_lt (Nat.ne_of_gt hpos)).mpr hlt
  have hle : 2 ^ n.log2 ≤ n := Nat.log2_self_le (Nat.ne_of_gt hpos)
  have hup : n < 2 ^ (n.log2 + 1) := Nat.lt_log2_self
  have hscaled : 2 ^ 52 ≤ n * 2 ^ (52 - n.log2) ∧ n * 2 ^ (52 - n.log2) < 2 ^ 53 := by
    have hsplit : 2 ^ 52 = 2 ^ n.log2 * 2 ^ (52 - n.log2) := by
      rw [← Nat.pow_add]
      congr 1
      omega
    have hsplit' : 2 ^ 53 = 2 ^ (n.log2 + 1) * 2 ^ (52 - n.log2) := by
      rw [← Nat.pow_add]
      congr 1
      omega
    rw [hsplit, hsplit']
    exact ⟨Nat.mul_le_mul_right _ hle, Nat.mul_lt_mul_of_pos_right hup (Nat.pow_pos (by decide))⟩
  refine ⟨⟨false, n * 2 ^ (52 - n.log2), n.log2 - 52⟩, ?_, hpos, rfl, ?_, ?_, ?_, hlog⟩
  · have hcoarse : ¬n * 2 ^ (53 - n.log2) < 2 ^ 53 := by
      rw [show 53 - n.log2 = (52 - n.log2) + 1 by omega, Nat.pow_succ, ← Nat.mul_assoc]
      omega
    have hlow : max ((n.log2 : Int) - (Nat.log2 1 : Int) - 53) minExponent = n.log2 - 53 := by
      rw [show Nat.log2 1 = 0 by decide, minExponent]
      omega
    have hexponent : ¬maxExponent < (n.log2 : Int) - 53 + 1 := by
      rw [maxExponent]
      omega
    have hscale : (-((n.log2 : Int) - 53)).toNat = 53 - n.log2 ∧
        (-((n.log2 : Int) - 53 + 1)).toNat = 52 - n.log2 := by omega
    have hwidth : n * 2 ^ (52 - n.log2) ≠ 2 ^ 53 := Nat.ne_of_lt hscaled.2
    unfold ofNat ofRatio
    simp only [Nat.ne_of_gt hpos, if_false, hlow, Nat.pow_eq,
      unscale_of_nonpos n (show (n.log2 : Int) - 53 ≤ 0 by omega),
      unscale_of_nonpos n (show (n.log2 : Int) - 53 + 1 ≤ 0 by omega), Nat.div_one, hscale.1,
      hscale.2, hcoarse, roundToEven_one, hwidth, hexponent]
    rw [show (n.log2 : Int) - 53 + 1 = n.log2 - 52 by omega]
  · show (n.log2 : Int) - 52 ≤ 0
    omega
  · show n * 2 ^ (52 - n.log2) = n * 2 ^ (-((n.log2 : Int) - 52)).toNat
    congr 2
    omega
  · have hlog' : (n * 2 ^ (52 - n.log2)).log2 = 52 :=
      (Nat.log2_eq_iff (by omega)).mpr hscaled
    show ((n * 2 ^ (52 - n.log2)).log2 : Int) + ((n.log2 : Int) - 52) = n.log2
    rw [hlog']
    omega

theorem compareScaled_of_nonpos (a k b : Nat) {e : Int} (he : e ≤ 0) :
    compareScaled a k b e = compare (a * 10 ^ k * 2 ^ (-e).toNat) b := by
  have hzero : e.toNat = 0 ∧ (-(k : Int)).toNat = 0 := by omega
  simp only [compareScaled, hzero.1, hzero.2, Int.toNat_natCast, Nat.pow_eq, Nat.pow_zero,
    Nat.mul_one]

section Whole

variable {x : Binary64} {n : Nat} (h : x.Whole n)
include h

/-- The whole numbers that are read as it are no others: the next ones are a last place away, and
the numbers that are read as it half of that. -/
theorem Whole.readsBack_iff (digits k : Nat) :
    x.readsBack digits k = true ↔ digits * 10 ^ k = n := by
  have hexponent := h.exponent_le
  obtain ⟨p, hp, hplace⟩ : ∃ p, 0 < p ∧ p = 2 ^ (-x.exponent).toNat :=
    ⟨_, Nat.pow_pos (by decide), rfl⟩
  have hquarter : 2 ^ (-(x.exponent - 2)).toNat = 4 * p := by
    rw [hplace, show (-(x.exponent - 2)).toNat = (-x.exponent).toNat + 2 by omega, Nat.pow_add]
    omega
  have hsignificand : 4 * x.significand = n * (4 * p) := by
    rw [h.significand_eq, ← hplace]
    ring
  have hoffset : x.lowerOffset = 1 ∨ x.lowerOffset = 2 := by
    unfold lowerOffset
    split
    · exact Or.inl rfl
    · exact Or.inr rfl
  have hn := h.pos
  have hsmall : 4 * p ≤ n * (4 * p) := Nat.le_mul_of_pos_left _ hn
  simp only [readsBack, compareScaled_of_nonpos _ _ _ (show x.exponent - 2 ≤ 0 by omega), hquarter,
    hsignificand]
  constructor
  · intro hreads
    by_contra hne
    rcases Nat.lt_or_gt_of_ne hne with hlt | hgt
    · have hfar := Nat.mul_le_mul_right (4 * p) (Nat.succ_le_of_lt hlt)
      have hlow : compare (digits * 10 ^ k * (4 * p)) (n * (4 * p) - x.lowerOffset) = .lt := by
        rw [Nat.compare_eq_lt]
        rw [Nat.succ_mul] at hfar
        omega
      simp [hlow] at hreads
    · have hfar := Nat.mul_le_mul_right (4 * p) (Nat.succ_le_of_lt hgt)
      have hhigh : compare (digits * 10 ^ k * (4 * p)) (n * (4 * p) + 2) = .gt := by
        rw [Nat.compare_eq_gt]
        rw [Nat.succ_mul] at hfar
        omega
      simp [hhigh] at hreads
  · rintro rfl
    have hlow : compare (digits * 10 ^ k * (4 * p))
        (digits * 10 ^ k * (4 * p) - x.lowerOffset) = .gt := by
      rw [Nat.compare_eq_gt]
      omega
    have hhigh : compare (digits * 10 ^ k * (4 * p)) (digits * 10 ^ k * (4 * p) + 2) = .lt := by
      rw [Nat.compare_eq_lt]
      omega
    simp [hlow, hhigh]

/-- The logarithm to base two gives the one to base ten up to one. -/
theorem Whole.leadingExponent_eq :
    x.leadingExponent = ((Nat.toDigits 10 n).length : Int) - 1 := by
  have hlog := h.log_lt
  have hexponent := h.exponent_le
  have hle : 2 ^ n.log2 ≤ n := Nat.log2_self_le (Nat.ne_of_gt h.pos)
  have hup : n < 2 ^ (n.log2 + 1) := Nat.lt_log2_self
  obtain ⟨g, hg⟩ : ∃ g : Nat, g = n.log2 * 30103 / 100000 := ⟨_, rfl⟩
  have hbounds : 10 ^ g ≤ 2 ^ n.log2 ∧ 2 ^ (n.log2 + 1) ≤ 10 ^ (g + 2) := by
    have hall : ∀ l < 53, 10 ^ (l * 30103 / 100000) ≤ 2 ^ l ∧
        2 ^ (l + 1) ≤ 10 ^ (l * 30103 / 100000 + 2) := by decide
    rw [hg]
    exact hall _ hlog
  have hguess : ((x.significand.log2 : Int) + x.exponent) * 30103 / 100000 = g := by
    rw [h.log_eq, hg]
    omega
  have hcompare : compareScaled 1 ((g : Int) + 1) x.significand x.exponent =
      compare (10 ^ (g + 1) * 2 ^ (-x.exponent).toNat) (n * 2 ^ (-x.exponent).toNat) := by
    have hscaled := compareScaled_of_nonpos 1 (g + 1) x.significand hexponent
    rw [Nat.one_mul] at hscaled
    rw [← h.significand_eq]
    exact hscaled
  have hpower : 0 < 2 ^ (-x.exponent).toNat := Nat.pow_pos (by decide)
  unfold leadingExponent
  simp only [hguess, hcompare, Nat.compare_eq_gt, Nat.mul_lt_mul_right hpower]
  have hlength : ∀ k, 0 < k → ((Nat.toDigits 10 n).length ≤ k ↔ n < 10 ^ k) :=
    fun k hk => Nat.length_toDigits_le_iff (by decide) hk
  split
  · rename_i hlt
    have hshort := (hlength (g + 1) (by omega)).mpr hlt
    have hlong : ¬(Nat.toDigits 10 n).length ≤ g := by
      intro hlen
      rcases Nat.eq_zero_or_pos g with rfl | hg0
      · have := Nat.length_toDigits_pos (b := 10) (n := n)
        omega
      · have := (hlength g hg0).mp hlen
        omega
    omega
  · rename_i hge
    have hshort := (hlength (g + 2) (by omega)).mpr (by omega)
    have hlong : ¬(Nat.toDigits 10 n).length ≤ g + 1 := by
      intro hlen
      exact hge ((hlength (g + 1) (by omega)).mp hlen)
    omega

theorem Whole.length_toDigits_le : (Nat.toDigits 10 n).length ≤ 16 := by
  have hup : n < 2 ^ (n.log2 + 1) := Nat.lt_log2_self
  have hlog : 2 ^ (n.log2 + 1) ≤ 2 ^ 53 := Nat.pow_le_pow_right (by decide) h.log_lt
  exact (Nat.length_toDigits_le_iff (by decide) (by decide)).mpr (by omega)

theorem Whole.floorOnGrid_eq (k : Nat) : x.floorOnGrid k = n / 10 ^ k := by
  have hexponent := h.exponent_le
  have hzero : x.exponent.toNat = 0 ∧ (-(k : Int)).toNat = 0 := by omega
  have hpower : 0 < 2 ^ (-x.exponent).toNat := Nat.pow_pos (by decide)
  simp only [floorOnGrid, hzero.1, hzero.2, Int.toNat_natCast, Nat.pow_eq, Nat.pow_zero,
    Nat.mul_one]
  rw [h.significand_eq, Nat.mul_div_mul_right _ _ hpower]

/-- With so many digits the number is written just if the others are zeros. -/
theorem Whole.onGrid_eq (tie : Tie) {count k : Nat}
    (hcount : count + k = (Nat.toDigits 10 n).length) :
    x.onGrid tie count = if 10 ^ k ∣ n then some ⟨n / 10 ^ k, k⟩ else none := by
  have hk : x.leadingExponent - count + 1 = (k : Int) := by
    rw [h.leadingExponent_eq]
    omega
  have hreads : ∀ digits, x.readsBack digits k = decide (digits * 10 ^ k = n) := by
    intro digits
    rw [Bool.eq_iff_iff, decide_eq_true_eq]
    exact h.readsBack_iff digits k
  unfold onGrid
  simp only [hk, h.floorOnGrid_eq, hreads]
  by_cases hdvd : 10 ^ k ∣ n
  · have hfloor : n / 10 ^ k * 10 ^ k = n := Nat.div_mul_cancel hdvd
    have hnext : (n / 10 ^ k + 1) * 10 ^ k ≠ n := by
      have hpower : 0 < 10 ^ k := Nat.pow_pos (by decide)
      rw [Nat.add_mul, hfloor]
      omega
    simp [hfloor, hnext, hdvd]
  · have hnot : ∀ digits, digits * 10 ^ k ≠ n := by
      rintro digits rfl
      exact hdvd (Nat.dvd_mul_left _ _)
    simp [hnot, hdvd]

/-- The number is written with its digits up to the zeros at its end. -/
theorem Whole.shortest_eq (tie : Tie) {d k : Nat} (hd : ¬10 ∣ d) (hn : n = d * 10 ^ k) :
    x.shortest tie = ⟨d, k⟩ := by
  have hpos : 0 < d := Nat.pos_of_ne_zero fun hzero => hd (hzero ▸ Nat.dvd_zero 10)
  have hpower : 0 < 10 ^ k := Nat.pow_pos (by decide)
  have hlength : (Nat.toDigits 10 n).length = (Nat.toDigits 10 d).length + k := by
    rw [hn, toDigits_mul_pow hpos, List.length_append, List.length_replicate]
  have hshort := h.length_toDigits_le
  obtain ⟨count, hcount⟩ : ∃ count, (Nat.toDigits 10 d).length = count + 1 :=
    Nat.exists_eq_add_of_le' Nat.length_toDigits_pos
  have hfound : (List.range' 1 maxDigits).findSome? (x.onGrid tie) = some ⟨d, k⟩ := by
    rw [List.findSome?_eq_some_iff]
    refine ⟨List.range' 1 count, count + 1, List.range' (count + 2) (16 - count), ?_, ?_, ?_⟩
    · rw [maxDigits, show 17 = count + (16 - count + 1) by omega, ← List.range'_append_1,
        List.range'_succ, Nat.add_comm 1 count]
    · rw [h.onGrid_eq tie (k := k) (by omega)]
      simp [hn, Nat.mul_div_cancel _ hpower]
    · intro other hother
      rw [List.mem_range'_1] at hother
      have hcoarse : ¬10 ^ (k + (count - other + 1)) ∣ n := by
        rw [hn, Nat.pow_add, Nat.mul_comm d, Nat.mul_dvd_mul_iff_left hpower, Nat.pow_succ']
        exact fun hdvd => hd (Nat.dvd_trans (Nat.dvd_mul_right 10 _) hdvd)
      rw [h.onGrid_eq tie (k := k + (count - other + 1)) (by omega), if_neg hcoarse]
  rw [shortest, hfound]
  rfl

theorem Whole.render_name : DecimalLayout.name.render x = Nat.repr n := by
  obtain ⟨k, d, hd, hn⟩ := Nat.exists_eq_pow_mul_and_not_dvd (Nat.ne_of_gt h.pos) 10 (by decide)
  rw [Nat.mul_comm] at hn
  have hpos : 0 < d := Nat.pos_of_ne_zero fun hzero => hd (hzero ▸ Nat.dvd_zero 10)
  have hsignificand : x.isZero = false := by
    rw [isZero, h.significand_eq, decide_eq_false_iff_not]
    exact Nat.ne_of_gt (Nat.mul_pos h.pos (Nat.pow_pos (by decide)))
  obtain ⟨count, hcount⟩ : ∃ count, (Nat.toDigits 10 d).length = count + 1 :=
    Nat.exists_eq_add_of_le' Nat.length_toDigits_pos
  have hlead : (k : Int) + (Nat.repr d).length - 1 = (count + k : Nat) := by
    rw [← String.length_toList, Nat.toList_repr, hcount]
    omega
  have hpositional : (-6 : Int) ≤ (count + k : Nat) ∧ ((count + k : Nat) : Int) ≤ 20 := by
    have hlength := h.length_toDigits_le
    rw [hn, toDigits_mul_pow hpos, List.length_append, List.length_replicate] at hlength
    omega
  have hdigits := toDigits_mul_pow hpos k
  rw [← hn] at hdigits
  unfold DecimalLayout.render
  simp only [hsignificand, h.not_negative, h.shortest_eq _ hd hn, DecimalLayout.name, hlead,
    hpositional, significantDigits_of_not_dvd hd]
  rw [placePoint_of_le (by omega), show count + k + 1 - (Nat.toDigits 10 d).length = k by omega,
    ← hdigits, ← Nat.toList_repr, String.ofList_toList]
  simp

end Whole

end Binary64

/-- A whole number up to `2 ^ 53` is named by its own digits. -/
theorem numeralName_eq_repr {n : Nat} (hn : n ≤ 2 ^ 53) : numeralName n = Nat.repr n := by
  rcases Nat.eq_zero_or_pos n with rfl | hpos
  · decide +kernel
  rcases Nat.lt_or_eq_of_le hn with hlt | rfl
  · obtain ⟨x, hx, hwhole⟩ := Binary64.exists_whole hpos hlt
    rw [numeralName, hx]
    exact hwhole.render_name
  · -- the last places below and above this number are not the same
    decide +kernel

/-- The next whole number is no floating-point number. -/
example : numeralName (2 ^ 53 + 1) = "9007199254740992" := by decide +kernel

end OpenApiTypings
