import OpenApiTypings.Proofs.Number.Value
import OpenApiTypings.Proofs.Text.Bracket

/-!
# The form of number literals

A number literal is a decimal text: digits, with a sign in front of them and a point among them
at most.  The point has digits on both sides, and no zero stands in front of other digits of the
whole part, where it would not be a number of the declaration language.

The digits of a floating-point number other than zero are those of a decimal that reads back as
it.  Zero is no such decimal, so they begin with a digit other than zero.
-/

namespace OpenApiTypings

/-! ### Decimal texts -/

namespace Text

/-- One or more digits. -/
def IsDigits (text : List Char) : Prop :=
  text ≠ [] ∧ ∀ c ∈ text, c.isDigit = true

/-- Digits with no zero in front of others. -/
def IsWholePart (text : List Char) : Prop :=
  IsDigits text ∧ (text.head? = some '0' → text = ['0'])

/-- A whole part, or one with a point and further digits. -/
inductive IsUnsigned : List Char → Prop where
  | whole {digits : List Char} (h : IsWholePart digits) : IsUnsigned digits
  | point {whole fraction : List Char} (hwhole : IsWholePart whole)
      (hfraction : IsDigits fraction) : IsUnsigned (whole ++ '.' :: fraction)

/-- A number without an exponent, with a minus sign in front of it or none. -/
inductive IsDecimal : List Char → Prop where
  | unsigned {text : List Char} (h : IsUnsigned text) : IsDecimal text
  | negative {text : List Char} (h : IsUnsigned text) : IsDecimal ('-' :: text)

theorem IsDigits.append_left {front text : List Char} (h : IsDigits text)
    (hfront : ∀ c ∈ front, c.isDigit = true) : IsDigits (front ++ text) := by
  refine ⟨List.append_ne_nil_of_right_ne_nil front h.1, fun c hc => ?_⟩
  rcases List.mem_append.mp hc with hc | hc
  · exact hfront c hc
  · exact h.2 c hc

theorem IsDigits.append_right {text back : List Char} (h : IsDigits text)
    (hback : ∀ c ∈ back, c.isDigit = true) : IsDigits (text ++ back) := by
  refine ⟨List.append_ne_nil_of_left_ne_nil h.1 back, fun c hc => ?_⟩
  rcases List.mem_append.mp hc with hc | hc
  · exact h.2 c hc
  · exact hback c hc

theorem isDigits_toDigits (n : Nat) : IsDigits (Nat.toDigits 10 n) :=
  ⟨List.ne_nil_of_length_pos Nat.length_toDigits_pos, List.all_eq_true.mp (all_isDigit_toDigits n)⟩

theorem isWholePart_zero : IsWholePart ['0'] :=
  ⟨⟨List.cons_ne_nil _ _, by simp⟩, fun _ => rfl⟩

theorem isWholePart_toDigits (n : Nat) : IsWholePart (Nat.toDigits 10 n) := by
  refine ⟨isDigits_toDigits n, fun hhead => ?_⟩
  by_cases hn : n = 0
  · rw [hn, Nat.toDigits_zero]
  · exact absurd hhead (head?_toDigits hn)

end Text

/-! ### Shortest decimals -/

namespace Binary64

variable {x : Binary64}

theorem compareScaled_zero {b : Nat} (hb : 0 < b) (k e : Int) : compareScaled 0 k b e = .lt := by
  have hpos : 0 < b * 2 ^ e.toNat * 10 ^ (-k).toNat :=
    Nat.mul_pos (Nat.mul_pos hb (Nat.pow_pos (by decide))) (Nat.pow_pos (by decide))
  unfold compareScaled
  rw [Nat.zero_mul, Nat.zero_mul]
  exact Nat.compare_eq_lt.mpr hpos

theorem ne_zero_of_readsBack (hx : x.isZero = false) {digits : Nat} {k : Int}
    (h : x.readsBack digits k = true) : digits ≠ 0 := by
  rintro rfl
  have hsignificand : x.significand ≠ 0 := by simpa [isZero] using hx
  have hlow : 0 < 4 * x.significand - x.lowerOffset := by
    have hoffset : x.lowerOffset ≤ 2 := by
      unfold lowerOffset
      split <;> omega
    omega
  simp [readsBack, compareScaled_zero hlow] at h

theorem digits_ne_zero_of_onGrid (hx : x.isZero = false) {tie : Tie} {count : Nat}
    {decimal : Decimal} (h : x.onGrid tie count = some decimal) : decimal.digits ≠ 0 := by
  unfold onGrid at h
  generalize x.leadingExponent - count + 1 = k at h
  simp only at h
  generalize x.floorOnGrid k = low at h
  have hnext : some ⟨low + 1, k⟩ = some decimal → decimal.digits ≠ 0 := by
    rintro ⟨⟩
    exact Nat.succ_ne_zero low
  have hlow : x.readsBack low k = true → some ⟨low, k⟩ = some decimal → decimal.digits ≠ 0 := by
    rintro hreads ⟨⟩
    exact ne_zero_of_readsBack hx hreads
  -- the number on the grid below is taken only where it reads back
  split at h
  · cases h
  · rename_i hreads _
    exact hlow hreads h
  · exact hnext h
  · rename_i hreads _
    generalize compareScaled (2 * low + 1) k (2 * x.significand) x.exponent = order at h
    split at h
    · exact hlow hreads h
    · exact hnext h
    · exact hnext h
    · split at h
      · exact hlow hreads h
      · exact hnext h

theorem digits_shortest_ne_zero (hx : x.isZero = false) (tie : Tie) :
    (x.shortest tie).digits ≠ 0 := by
  unfold shortest
  cases hfound : (List.range' 1 maxDigits).findSome? (x.onGrid tie) with
  | none => simpa [isZero] using hx
  | some decimal =>
    obtain ⟨count, -, hcount⟩ := List.exists_of_findSome?_eq_some hfound
    exact digits_ne_zero_of_onGrid hx hcount

end Binary64

/-! ### Literals -/

namespace DecimalLayout

open Text (IsDigits IsWholePart IsUnsigned IsDecimal)

theorem isDigit_of_mem_zeros {n : Nat} {c : Char} (hc : c ∈ (zeros n).toList) :
    c.isDigit = true := by
  rw [zeros, String.toList_ofList] at hc
  rw [List.eq_of_mem_replicate hc]
  decide

theorem significantDigits_prefix (n : Nat) : significantDigits n <+: Nat.toDigits 10 n := by
  rw [significantDigits, Nat.toList_repr, ← List.reverse_suffix, List.reverse_reverse]
  exact List.dropWhile_suffix _

/-- The first digit of a number other than zero is significant. -/
theorem exists_significantDigits_cons {n : Nat} (hn : n ≠ 0) :
    ∃ first rest, significantDigits n = first :: rest ∧ first ≠ '0' := by
  obtain ⟨first, rest, hdigits⟩ := List.exists_cons_of_ne_nil (Text.isDigits_toDigits n).1
  have hfirst : first ≠ '0' := by
    rintro rfl
    exact Text.head?_toDigits hn (by rw [hdigits]; rfl)
  cases hsignificant : significantDigits n with
  | nil =>
    rw [significantDigits, Nat.toList_repr, List.reverse_eq_nil_iff,
      List.dropWhile_eq_nil_iff] at hsignificant
    have hzero := hsignificant first (by simp [hdigits])
    exact absurd (of_decide_eq_true hzero) hfirst
  | cons first' rest' =>
    have hinitial := significantDigits_prefix n
    rw [hsignificant, hdigits, List.cons_prefix_cons] at hinitial
    exact ⟨first', rest', rfl, hinitial.1 ▸ hfirst⟩

/-- The point is placed in front of the digits, among them or behind them. -/
theorem isUnsigned_placePoint {first : Char} {rest : List Char}
    (hdigits : IsDigits (first :: rest)) (hfirst : first ≠ '0') (lead : Int) :
    IsUnsigned (placePoint "" (first :: rest) lead).toList := by
  unfold placePoint
  split
  · have hfraction : IsDigits ((zeros (-lead - 1).toNat).toList ++ first :: rest) :=
      hdigits.append_left fun c => isDigit_of_mem_zeros
    simpa using IsUnsigned.point Text.isWholePart_zero hfraction
  · simp only
    split
    · have hwhole : IsDigits (first :: rest ++
          (zeros (lead.toNat + 1 - (first :: rest).length)).toList) :=
        hdigits.append_right fun c => isDigit_of_mem_zeros
      simpa using IsUnsigned.whole
        ⟨hwhole, fun hhead => absurd (Option.some.inj hhead) hfirst⟩
    · rename_i hlong
      have hwhole : IsWholePart (List.take (lead.toNat + 1) (first :: rest)) :=
        ⟨⟨by simp, fun c hc => hdigits.2 c (List.mem_of_mem_take hc)⟩,
          fun hhead => absurd (Option.some.inj hhead) hfirst⟩
      have hfraction : IsDigits (List.drop (lead.toNat + 1) (first :: rest)) :=
        ⟨fun hnil => hlong (List.drop_eq_nil_iff.mp hnil),
          fun c hc => hdigits.2 c (List.mem_of_mem_drop hc)⟩
      simpa using IsUnsigned.point hwhole hfraction

theorem isDecimal_literal (x : Binary64) : IsDecimal (literal.render x).toList := by
  have hsign : ∀ text : String, IsUnsigned text.toList →
      IsDecimal ((if x.negative then "-" else "") ++ text).toList := by
    intro text htext
    split
    · rw [String.toList_append]
      exact .negative htext
    · rw [String.empty_append]
      exact .unsigned htext
  unfold render
  simp only [literal]
  split
  · rw [String.append_empty]
    exact hsign "0" (.whole Text.isWholePart_zero)
  · rename_i hx
    have hx : x.isZero = false := by simpa using hx
    obtain ⟨first, rest, hdigits, hfirst⟩ :=
      exists_significantDigits_cons (Binary64.digits_shortest_ne_zero hx .up)
    apply hsign
    rw [hdigits]
    refine isUnsigned_placePoint ⟨by simp, fun c hc => ?_⟩ hfirst _
    have hinitial := significantDigits_prefix (x.shortest .up).digits
    rw [hdigits] at hinitial
    exact (Text.isDigits_toDigits _).2 c (hinitial.subset hc)

end DecimalLayout

theorem Number.isDecimal_literal (n : Number) : Text.IsDecimal n.literal.toList := by
  cases n with
  | double x => exact DecimalLayout.isDecimal_literal x
  | integer n =>
    cases n with
    | ofNat n =>
      have hlist : (Number.literal (.integer (Int.ofNat n))).toList = Nat.toDigits 10 n :=
        Nat.toList_repr
      rw [hlist]
      exact .unsigned (.whole (Text.isWholePart_toDigits n))
    | negSucc n =>
      rw [Number.toList_literal_negSucc]
      exact .negative (.whole (Text.isWholePart_toDigits (n + 1)))

/-! ### Characters -/

/-- A digit, a sign or a point. -/
def IsDecimalChar (c : Char) : Prop := c.isDigit = true ∨ c = '-' ∨ c = '.'

theorem IsDecimalChar.isBare {c : Char} (h : IsDecimalChar c) : Text.isBare c = true := by
  rcases h with hdigit | rfl | rfl
  · apply Text.isBare_of_isIdentPart
    simp [Text.isIdentPart, Char.isAlphanum, hdigit]
  · decide
  · decide

theorem Text.IsUnsigned.isDecimalChar {text : List Char} (h : IsUnsigned text) {c : Char}
    (hc : c ∈ text) : IsDecimalChar c := by
  cases h with
  | whole h => exact Or.inl (h.1.2 c hc)
  | point hwhole hfraction =>
    rcases List.mem_append.mp hc with hc | hc
    · exact Or.inl (hwhole.1.2 c hc)
    rcases List.mem_cons.mp hc with rfl | hc
    · exact Or.inr (Or.inr rfl)
    · exact Or.inl (hfraction.2 c hc)

theorem Text.IsDecimal.isDecimalChar {text : List Char} (h : IsDecimal text) {c : Char}
    (hc : c ∈ text) : IsDecimalChar c := by
  cases h with
  | unsigned h => exact h.isDecimalChar hc
  | negative h =>
    rcases List.mem_cons.mp hc with rfl | hc
    · exact Or.inr (Or.inl rfl)
    · exact h.isDecimalChar hc

theorem Number.isDecimalChar_of_mem_literal {n : Number} {c : Char}
    (hc : c ∈ n.literal.toList) : IsDecimalChar c :=
  n.isDecimal_literal.isDecimalChar hc

end OpenApiTypings
