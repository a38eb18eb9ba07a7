import OpenApiTypings.Proofs.Declarations.StatusOrder
import OpenApiTypings.Proofs.Text.PropertyName

/-!
# Keys of status codes

A code is written bare if it is a number, and a bare number is a key by its value.  So the key of
a number gives the code back just if the code is what the value is written with: a code that
begins with zeros has no key that can be read, and a code whose value is no floating-point number
has the key of another one.
-/

namespace OpenApiTypings.Status

open Text (propertyName? units)

theorem key_of_isNumber {code : String} {n : Nat} (h : IsNumber code n) : key code = code := by
  simp [key, number?_eq_some_iff.mpr h]

theorem key_of_not_isNumber {code : String} (h : ∀ n, ¬IsNumber code n) (hne : code ≠ "default") :
    key code = Text.quote code := by
  simp [key, number?_eq_none_iff.mpr h, hne]

/-- A number is read by its value. -/
theorem propertyName?_number {code : String} {n : Nat} (h : IsNumber code n) (rest : List Char) :
    propertyName? ((key code).toList ++ ':' :: rest) =
      if code = Nat.repr n then some (units (numeralName n).toList, ':' :: rest) else none := by
  have hne : code.toList ≠ [] := fun hnil => h.nonempty (String.toList_eq_nil_iff.mp hnil)
  have hdigits : ∀ c ∈ code.toList, c.isDigit = true := fun c hc =>
    Text.isDigit_iff.mpr (h.digits c hc)
  have hsame : code.toList = Nat.toDigits 10 n ↔ code = Nat.repr n := by
    rw [← Nat.toList_repr, String.toList_inj]
  have hread := Text.numeral?_eq hne hdigits
  rw [h.value, if_congr hsame rfl rfl] at hread
  obtain ⟨c, text, hcons⟩ := List.exists_cons_of_ne_nil hne
  rw [hcons] at hdigits hread
  obtain ⟨hc, htext⟩ := List.forall_mem_cons.mp hdigits
  rw [key_of_isNumber h, hcons, Text.propertyName?_digits hc htext rfl, hread]
  split <;> rfl

/-- All other codes are read as they are. -/
theorem propertyName?_text {code : String} (h : ∀ n, ¬IsNumber code n) (rest : List Char) :
    propertyName? ((key code).toList ++ ':' :: rest) = some (units code.toList, ':' :: rest) := by
  by_cases hdefault : code = "default"
  · subst hdefault
    have htext : ∀ d ∈ "efault".toList, Text.isIdentPart d = true :=
      List.all_eq_true.mp (by decide +kernel)
    exact Text.propertyName?_identifier (c := 'd') (by decide) htext rfl
  · rw [key_of_not_isNumber h hdefault]
    exact Text.propertyName?_quote code _

theorem key_denotes_iff {code : String} {rest : List Char} :
    propertyName? ((key code).toList ++ ':' :: rest) = some (units code.toList, ':' :: rest) ↔
      ∀ n, IsNumber code n → code = Nat.repr n ∧ numeralName n = Nat.repr n := by
  cases hnumber : number? code with
  | none =>
    have hnone := number?_eq_none_iff.mp hnumber
    simp [propertyName?_text hnone, hnone]
  | some n =>
    have hn := number?_eq_some_iff.mp hnumber
    simp only [propertyName?_number hn, hn.iff_eq, forall_eq]
    by_cases hsame : code = Nat.repr n
    · have hname : units (numeralName n).toList = units code.toList ↔
          numeralName n = Nat.repr n := by
        rw [← hsame]
        exact ⟨fun h => String.toList_injective (Text.units_injective h), fun h => h ▸ rfl⟩
      rw [if_pos hsame, and_iff_right hsame, ← hname]
      simp
    · simp [hsame]

theorem key_unreadable_iff {code : String} {rest : List Char} :
    propertyName? ((key code).toList ++ ':' :: rest) = none ↔
      ∃ n, IsNumber code n ∧ code ≠ Nat.repr n := by
  cases hnumber : number? code with
  | none =>
    have hnone := number?_eq_none_iff.mp hnumber
    simp [propertyName?_text hnone, hnone]
  | some n =>
    have hn := number?_eq_some_iff.mp hnumber
    simp [propertyName?_number hn, hn.iff_eq]

/-- If the code is a number, then it is one up to `2 ^ 53` without zeros in front. -/
def Exact (code : String) : Prop :=
  ∀ n, IsNumber code n → code = Nat.repr n ∧ n ≤ 2 ^ 53

theorem Exact.denotes {code : String} (h : Exact code) (rest : List Char) :
    propertyName? ((key code).toList ++ ':' :: rest) = some (units code.toList, ':' :: rest) := by
  refine key_denotes_iff.mpr fun n hn => ?_
  obtain ⟨hrepr, hle⟩ := h n hn
  exact ⟨hrepr, numeralName_eq_repr hle⟩

theorem key_eq (code : String) :
    ((∃ n, IsNumber code n) ∨ code = "default") ∧ key code = code ∨
      (¬∃ n, IsNumber code n) ∧ code ≠ "default" ∧ key code = Text.quote code := by
  by_cases hnumber : ∃ n, IsNumber code n
  · exact Or.inl ⟨Or.inl hnumber, key_of_isNumber hnumber.choose_spec⟩
  by_cases hdefault : code = "default"
  · subst hdefault
    exact Or.inl ⟨Or.inr rfl, by decide⟩
  · exact Or.inr ⟨hnumber, hdefault, key_of_not_isNumber (not_exists.mp hnumber) hdefault⟩

/-- The key of a code is a bare number, `default` or a literal.  A number with zeros in front has
no key that can be read.  Any other code has a key that is read as the code, unless the code is a
number and the floating-point number nearest to it is written with other digits.  That does not
occur up to `2 ^ 53`, so two such codes have two names. -/
theorem key_denotes (code : String) (rest : List Char) :
    (((∃ n, IsNumber code n) ∨ code = "default") ∧ key code = code ∨
      (¬∃ n, IsNumber code n) ∧ code ≠ "default" ∧ key code = Text.quote code) ∧
    (propertyName? ((key code).toList ++ ':' :: rest) = none ↔
      ∃ n, IsNumber code n ∧ code ≠ Nat.repr n) ∧
    (propertyName? ((key code).toList ++ ':' :: rest) = some (units code.toList, ':' :: rest) ↔
      ∀ n, IsNumber code n → code = Nat.repr n ∧ numeralName n = Nat.repr n) ∧
    (Exact code →
      propertyName? ((key code).toList ++ ':' :: rest) = some (units code.toList, ':' :: rest) ∧
      ∀ other, Exact other →
        propertyName? ((key code).toList ++ ':' :: rest) =
          propertyName? ((key other).toList ++ ':' :: rest) → code = other) := by
  refine ⟨key_eq code, key_unreadable_iff, key_denotes_iff, fun hcode => ?_⟩
  refine ⟨hcode.denotes rest, fun other hother hsame => ?_⟩
  rw [hcode.denotes rest, hother.denotes rest] at hsame
  exact Text.eq_of_read_eq hsame

/-- A zero in front makes the key unreadable, and two large numbers have one key. -/
theorem not_key_denotes :
    key "0200" = "0200" ∧ propertyName? ((key "0200").toList ++ ": never".toList) = none ∧
      propertyName? ((key "9007199254740993").toList ++ ": never".toList) =
        propertyName? ((key "9007199254740992").toList ++ ": never".toList) ∧
      ¬∀ code rest, propertyName? ((key code).toList ++ ':' :: rest) =
        some (units code.toList, ':' :: rest) := by
  have hunread : propertyName? ((key "0200").toList ++ ": never".toList) = none := by
    decide +kernel
  refine ⟨by decide +kernel, hunread, by decide +kernel, fun h => ?_⟩
  have hread := h "0200" " never".toList
  exact absurd (hread.symm.trans hunread) nofun

end OpenApiTypings.Status
