import Mathlib.Data.List.SplitBy
import OpenApiTypings.Proofs.Text.Bracket
import OpenApiTypings.Text.Words

/-!
# Words of a hint

A token is cut into words where a capital stands behind a small letter, and where a digit stands
beside a character that is none.  Nothing is lost, no word is empty, and no two words could be one:
there is no other way to cut the token like that (`splitToken_eq_iff`).

The tokens of a hint have letters and digits alone.  So have its words, and the name made of them.
-/

namespace OpenApiTypings.Text

/-! ### Ends of words -/

/-- One word ends with the first character, and another one begins with the second. -/
inductive WordEnds : Char → Char → Prop
  | capital {c d : Char} (hc : c.isLower = true) (hd : d.isUpper = true) : WordEnds c d
  | digit {c d : Char} (hc : c.isDigit = false) (hd : d.isDigit = true) : WordEnds c d
  | noDigit {c d : Char} (hc : c.isDigit = true) (hd : d.isDigit = false) : WordEnds c d

theorem isWordBoundary_iff {c d : Char} : isWordBoundary c d = true ↔ WordEnds c d := by
  simp only [isWordBoundary, Bool.or_eq_true, Bool.and_eq_true, bne_iff_ne, ne_eq]
  constructor
  · rintro (⟨hc, hd⟩ | hne)
    · exact .capital hc hd
    · cases hc : c.isDigit with
      | true => exact .noDigit hc (by simpa [hc] using hne)
      | false => exact .digit hc (by simpa [hc] using hne)
  · intro hends
    cases hends with
    | capital hc hd => exact Or.inl ⟨hc, hd⟩
    | digit hc hd => simp [hc, hd]
    | noDigit hc hd => simp [hc, hd]

/-- No word ends between a character and the same one. -/
theorem not_wordEnds_self (c : Char) : ¬ WordEnds c c := by
  intro hends
  cases hends with
  | capital hlower hupper =>
    have hle := Char.le_trans (isLower_iff.mp hlower).1 (isUpper_iff.mp hupper).2
    exact absurd hle (by decide)
  | digit hno hdigit => simp [hdigit] at hno
  | noDigit hdigit hno => simp [hdigit] at hno

/-! ### Words of a token -/

/-- The token is cut into the words: between two of them one ends, and inside of them none does. -/
structure FallsInto (token : List Char) (words : List (List Char)) : Prop where
  flatten_eq : words.flatten = token
  ne_nil : ∀ word ∈ words, word ≠ []
  inside : ∀ word ∈ words, word.IsChain fun c d => ¬ WordEnds c d
  between : words.IsChain fun left right =>
    ∃ c ∈ left.getLast?, ∃ d ∈ right.head?, WordEnds c d

theorem exists_wordEnds_iff {left right : List Char} :
    (∃ hleft hright, isWordBoundary (left.getLast hleft) (right.head hright) = true) ↔
      ∃ c ∈ left.getLast?, ∃ d ∈ right.head?, WordEnds c d := by
  constructor
  · rintro ⟨hleft, hright, hends⟩
    exact ⟨_, List.getLast_mem_getLast? hleft, _, List.head_mem_head? hright,
      isWordBoundary_iff.mp hends⟩
  · rintro ⟨c, hc, d, hd, hends⟩
    refine ⟨List.ne_nil_of_mem (List.mem_of_mem_getLast? hc),
      List.ne_nil_of_mem (List.mem_of_mem_head? hd), ?_⟩
    rw [List.getLast_of_mem_getLast? hc, List.head_of_mem_head? hd, isWordBoundary_iff]
    exact hends

theorem splitBy_eq_iff_fallsInto {token : List Char} {words : List (List Char)} :
    token.splitBy (fun c d => !isWordBoundary c d) = words ↔ FallsInto token words := by
  rw [List.splitBy_eq_iff]
  simp only [Bool.not_eq_false', exists_wordEnds_iff]
  simp only [Bool.not_eq_true', Bool.eq_false_iff, ne_eq, isWordBoundary_iff]
  constructor
  · rintro ⟨hflatten, hne, hinside, hbetween⟩
    refine ⟨hflatten.symm, ?_, hinside, hbetween⟩
    rintro word hword rfl
    exact hne hword
  · intro h
    refine ⟨h.flatten_eq.symm, ?_, h.inside, h.between⟩
    intro hnil
    exact h.ne_nil [] hnil rfl

theorem exists_splitToken_cons (c : Char) (rest : List Char) :
    ∃ tail more, splitToken (c :: rest) = (c :: tail) :: more := by
  cases rest with
  | nil => exact ⟨[], [], rfl⟩
  | cons d rest =>
    rw [splitToken]
    split
    · exact ⟨[], [], rfl⟩
    · rename_i word more hrest
      split
      · exact ⟨[], _, rfl⟩
      · exact ⟨word, more, rfl⟩

theorem splitToken_cons_cons (c : Char) {d : Char} {rest tail : List Char}
    {more : List (List Char)} (h : splitToken (d :: rest) = (d :: tail) :: more) :
    splitToken (c :: d :: rest) =
      if isWordBoundary c d then [c] :: (d :: tail) :: more else (c :: d :: tail) :: more := by
  simp only [splitToken, h]

theorem fallsInto_splitToken (c : Char) (rest : List Char) :
    FallsInto (c :: rest) (splitToken (c :: rest)) := by
  induction rest generalizing c with
  | nil => exact ⟨rfl, by simp [splitToken], by simp [splitToken], by simp [splitToken]⟩
  | cons d rest ih =>
    obtain ⟨tail, more, hrest⟩ := exists_splitToken_cons d rest
    have hd := ih d
    rw [hrest] at hd
    obtain ⟨hflatten, hne, hinside, hbetween⟩ := hd
    rw [splitToken_cons_cons c hrest]
    split
    · rename_i hends
      rw [isWordBoundary_iff] at hends
      refine ⟨by rw [List.flatten_cons, hflatten]; rfl, ?_, ?_, ?_⟩
      · exact List.forall_mem_cons.mpr ⟨List.cons_ne_nil _ _, hne⟩
      · exact List.forall_mem_cons.mpr ⟨List.isChain_singleton c, hinside⟩
      · exact List.isChain_cons_cons.mpr ⟨⟨c, rfl, d, rfl, hends⟩, hbetween⟩
    · rename_i hends
      rw [isWordBoundary_iff] at hends
      rw [List.flatten_cons, List.cons_append] at hflatten
      rw [List.forall_mem_cons] at hne hinside
      rw [List.isChain_cons] at hbetween
      refine ⟨?_, ?_, ?_, ?_⟩
      · rw [List.flatten_cons, List.cons_append, List.cons_append, hflatten]
      · exact List.forall_mem_cons.mpr ⟨List.cons_ne_nil _ _, hne.2⟩
      · exact List.forall_mem_cons.mpr
          ⟨List.isChain_cons_cons.mpr ⟨hends, hinside.1⟩, hinside.2⟩
      -- The first word is longer in front, so it ends as before.
      · refine List.isChain_cons.mpr ⟨?_, hbetween.2⟩
        intro next hnext
        rw [List.getLast?_cons_cons]
        exact hbetween.1 next hnext

theorem splitToken_eq_iff {token : List Char} (h : token ≠ []) {words : List (List Char)} :
    splitToken token = words ↔ FallsInto token words := by
  obtain ⟨c, rest, rfl⟩ := List.exists_cons_of_ne_nil h
  rw [← splitBy_eq_iff_fallsInto, splitBy_eq_iff_fallsInto.mpr (fallsInto_splitToken c rest)]

theorem flatten_splitToken (token : List Char) : (splitToken token).flatten = token := by
  cases token with
  | nil => rfl
  | cons c rest => exact (fallsInto_splitToken c rest).flatten_eq

/-! ### Letters and digits -/

theorem isAlphanum_of_mem_tokens {text token : List Char} (htoken : token ∈ tokens text)
    {c : Char} (hc : c ∈ token) : c.isAlphanum = true := by
  induction text generalizing token with
  | nil =>
    obtain rfl := List.mem_singleton.mp htoken
    exact absurd hc List.not_mem_nil
  | cons d rest ih =>
    rw [tokens, List.foldr_cons, ← tokens] at htoken
    split at htoken
    · rename_i hd
      split at htoken
      · obtain rfl := List.mem_singleton.mp htoken
        obtain rfl := List.mem_singleton.mp hc
        exact hd
      · rename_i first more hrest
        rcases List.mem_cons.mp htoken with rfl | hmore
        · rcases List.mem_cons.mp hc with rfl | hfirst
          · exact hd
          · exact ih (hrest ▸ List.mem_cons_self ..) hfirst
        · exact ih (hrest ▸ List.mem_cons_of_mem _ hmore) hc
    · rcases List.mem_cons.mp htoken with rfl | hrest
      · exact absurd hc List.not_mem_nil
      · exact ih hrest hc

theorem ne_nil_of_not_isStructural {token : List Char} (h : isStructural token = false) :
    token ≠ [] := by
  rintro rfl
  exact absurd h (by decide)

theorem isAlphanum_of_mem_words {hint : String} {word : List Char} (hword : word ∈ words hint)
    {c : Char} (hc : c ∈ word) : c.isAlphanum = true := by
  obtain ⟨token, htoken, hmem⟩ := List.mem_flatMap.mp (List.mem_filter.mp hword).1
  apply isAlphanum_of_mem_tokens (List.mem_filter.mp htoken).1
  rw [← flatten_splitToken token]
  exact List.mem_flatten.mpr ⟨word, hmem, hc⟩

theorem isIdentPart_of_isAlphanum {c : Char} (h : c.isAlphanum = true) :
    isIdentPart c = true := by
  simp [isIdentPart, h]

/-- Changing the case of a letter gives a letter. -/
theorem isAlphanum_case {c : Char} (h : c.isAlphanum = true) :
    c.toUpper.isAlphanum = true ∧ c.toLower.isAlphanum = true :=
  forall_isIdentPart
    (P := fun c => c.isAlphanum = true →
      c.toUpper.isAlphanum = true ∧ c.toLower.isAlphanum = true)
    (by decide +kernel) (isIdentPart_of_isAlphanum h) h

theorem isAlphanum_of_mem_capitalize {word : List Char}
    (h : ∀ c ∈ word, c.isAlphanum = true) {c : Char} (hc : c ∈ capitalize word) :
    c.isAlphanum = true := by
  have hascii : ∀ d ∈ word, d.toNat < 128 := by
    intro d hd
    exact toNat_lt_of_isIdentPart (isIdentPart_of_isAlphanum (h d hd))
  cases word with
  | nil => exact absurd hc List.not_mem_nil
  | cons first rest =>
    rw [List.forall_mem_cons] at h hascii
    rcases List.mem_append.mp hc with hupper | hlower
    · rw [upperMapping, if_pos hascii.1] at hupper
      obtain rfl := List.mem_singleton.mp hupper
      exact (isAlphanum_case h.1).1
    · obtain ⟨d, hd, hmem⟩ := List.mem_flatMap.mp hlower
      rw [lowerMapping, if_pos (hascii.2 d hd)] at hmem
      obtain rfl := List.mem_singleton.mp hmem
      exact (isAlphanum_case (h.2 d hd)).2

theorem isAlphanum_of_mem_pascalCase {hint : String} {c : Char}
    (hc : c ∈ (pascalCase hint).toList) : c.isAlphanum = true := by
  rw [pascalCase, String.toList_ofList] at hc
  obtain ⟨word, hword, hmem⟩ := List.mem_flatMap.mp hc
  exact isAlphanum_of_mem_capitalize (fun d hd => isAlphanum_of_mem_words hword hd) hmem

end OpenApiTypings.Text
