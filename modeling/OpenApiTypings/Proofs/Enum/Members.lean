import Mathlib.Data.List.Nodup
import OpenApiTypings.Proofs.Enum.Naming

/-!
# When the members of an enum are named apart

Members whose stems are the same are told apart by a number, which counts how often the stem
has occurred.  The number is not checked against the stems of other values, so a numbered
name can meet a stem that already reads like it.  This is the only way in which two members
of an enum come by the same name.

The members are the occurrences of stems, no two of which are the same, so everything follows
from which occurrences are given the same name.
-/

namespace OpenApiTypings.EnumMember

/-! ### Numbered stems -/

theorem numberedStem_one (stem : String) : numberedStem stem 1 = stem := rfl

theorem numberedStem_of_two_le (stem : String) {n : Nat} (hn : 2 ≤ n) :
    numberedStem stem n = stem ++ "_" ++ toString n := by
  simp [numberedStem, show ¬ n ≤ 1 by omega]

/-- The stem is what is left of a numbered one without the digits at its end and the mark
before them. -/
theorem dropDigits_numberedStem (stem : String) {n : Nat} (hn : 2 ≤ n) :
    (numberedStem stem n).toList.reverse.dropWhile Char.isDigit = '_' :: stem.toList.reverse := by
  have hmark : (stem ++ "_").toList.reverse = '_' :: stem.toList.reverse := by
    rw [String.toList_append, List.reverse_append]
    rfl
  rw [numberedStem_of_two_le stem hn, Registry.dropDigits_append_toString, hmark]
  rw [hmark]
  exact List.dropWhile_cons_of_neg (by decide)

theorem numberedStem_injective {stem stem' : String} {m n : Nat} (hm : 2 ≤ m) (hn : 2 ≤ n)
    (heq : numberedStem stem m = numberedStem stem' n) : stem = stem' ∧ m = n := by
  have hdrop := dropDigits_numberedStem stem hm
  rw [heq, dropDigits_numberedStem stem' hn] at hdrop
  have hstem : stem = stem' := by
    have hreversed := (List.cons.inj hdrop).2
    exact String.toList_inj.mp (List.reverse_inj.mp hreversed.symm)
  subst hstem
  rw [numberedStem_of_two_le stem hm, numberedStem_of_two_le stem hn] at heq
  exact ⟨rfl, Nat.repr_injective ((String.append_right_inj _).mp heq)⟩

/-! ### Occurrences of stems -/

/-- The stems of a list, each with the number of times it has occurred, those in `before`
included. -/
def occurrences (before : List String) : List String → List (String × Nat)
  | [] => []
  | stem :: rest => (stem, before.count stem + 1) :: occurrences (stem :: before) rest

theorem mem_occurrences {before stems : List String} {stem : String} {n : Nat} :
    (stem, n) ∈ occurrences before stems ↔
      before.count stem < n ∧ n ≤ before.count stem + stems.count stem := by
  induction stems generalizing before with
  | nil => simp [occurrences]
  | cons other rest ih =>
    rw [occurrences, List.mem_cons, ih]
    by_cases hother : other = stem
    · subst hother
      simp only [Prod.mk.injEq, true_and, List.count_cons_self]
      omega
    · simp only [Prod.mk.injEq, List.count_cons_of_ne hother]
      constructor
      · rintro (⟨rfl, -⟩ | hrest)
        · exact absurd rfl hother
        · exact hrest
      · exact Or.inr

theorem nodup_occurrences (before stems : List String) : (occurrences before stems).Nodup := by
  induction stems generalizing before with
  | nil => exact List.nodup_nil
  | cons stem rest ih =>
    refine List.nodup_cons.mpr ⟨?_, ih _⟩
    intro hmem
    have hlater := (mem_occurrences.mp hmem).1
    rw [List.count_cons_self] at hlater
    omega

/-- Every member is named for an occurrence of its stem. -/
theorem map_name_nameAll (before : List String) (seeds : List EnumMember) :
    (nameAll before seeds).map EnumMember.name =
      (occurrences before (seeds.map fun seed => identifierStem seed.name)).map fun occurrence =>
        numberedStem occurrence.1 occurrence.2 := by
  induction seeds generalizing before with
  | nil => rfl
  | cons seed rest ih => simp only [nameAll, List.map_cons, occurrences, ih]

/-- The occurrences of a list of stems are named apart just when no numbered stem is in the
list itself. -/
theorem nodup_names_iff (stems : List String) :
    ((occurrences [] stems).map fun occurrence =>
        numberedStem occurrence.1 occurrence.2).Nodup ↔
      ∀ stem n, 2 ≤ n → n ≤ stems.count stem → numberedStem stem n ∉ stems := by
  have hmem : ∀ stem n, (stem, n) ∈ occurrences [] stems ↔ 0 < n ∧ n ≤ stems.count stem := by
    intro stem n
    simp [mem_occurrences]
  rw [List.nodup_map_iff_inj_on (nodup_occurrences [] stems)]
  constructor
  · intro hinj stem n hn hcount hstem
    have hfirst := (hmem (numberedStem stem n) 1).mpr ⟨by omega, List.count_pos_iff.mpr hstem⟩
    have hsame := hinj _ hfirst _ ((hmem stem n).mpr ⟨by omega, hcount⟩) (numberedStem_one _)
    have hone : 1 = n := congrArg Prod.snd hsame
    omega
  · rintro hapart ⟨stem, m⟩ hm ⟨stem', n⟩ hn heq
    change numberedStem stem m = numberedStem stem' n at heq
    obtain ⟨hmpos, hmcount⟩ := (hmem stem m).mp hm
    obtain ⟨hnpos, hncount⟩ := (hmem stem' n).mp hn
    have hfirst : ∀ s t k, 0 < stems.count s → 2 ≤ k → k ≤ stems.count t →
        s ≠ numberedStem t k := by
      rintro s t k hs hk hcount rfl
      exact hapart t k hk hcount (List.count_pos_iff.mp hs)
    -- A name without a number is its stem, so the numbers decide which stems meet.
    rcases Nat.lt_or_ge m 2 with hmone | hmtwo
    · obtain rfl : m = 1 := by omega
      rcases Nat.lt_or_ge n 2 with hnone | hntwo
      · obtain rfl : n = 1 := by omega
        exact Prod.ext heq rfl
      · exact absurd heq (hfirst stem stem' n (by omega) hntwo hncount)
    · rcases Nat.lt_or_ge n 2 with hnone | hntwo
      · obtain rfl : n = 1 := by omega
        exact absurd heq.symm (hfirst stem' stem m (by omega) hmtwo hmcount)
      · obtain ⟨rfl, rfl⟩ := numberedStem_injective hmtwo hntwo heq
        rfl

/-! ### Members of listed values -/

/-- The identifier stems of listed values. -/
def stemsOf (values : List Json) : List String :=
  values.filterMap fun v => (seedOf? v).map fun seed => identifierStem seed.2.name

theorem stemsOf_eq_of_forall₂ {values : List Json} {kind : Kind} {seeds : List EnumMember}
    (h : List.Forall₂ (fun v seed => seedOf? v = some (kind, seed)) values seeds) :
    stemsOf values = seeds.map fun seed => identifierStem seed.name := by
  induction h with
  | nil => rfl
  | cons hseed _ ih => simp only [stemsOf, List.filterMap_cons, hseed, Option.map_some,
      List.map_cons, ← ih]

theorem map_name_ofValues? {values : List Json} {members : List EnumMember}
    (h : ofValues? values = some members) :
    members.map EnumMember.name = (occurrences [] (stemsOf values)).map fun occurrence =>
      numberedStem occurrence.1 occurrence.2 := by
  obtain ⟨kind, seeds, hseeds, -, rfl⟩ := ofValues?_eq_some_iff.mp h
  rw [map_name_nameAll, stemsOf_eq_of_forall₂ hseeds]

/-- The members of an enum have different names just when no value has for its stem what another
stem is named at one of its later occurrences. -/
theorem nodup_names_ofValues?_iff {values : List Json} {members : List EnumMember}
    (h : ofValues? values = some members) :
    (members.map EnumMember.name).Nodup ↔
      ∀ stem n, 2 ≤ n → n ≤ (stemsOf values).count stem →
        numberedStem stem n ∉ stemsOf values := by
  rw [map_name_ofValues? h]
  exact nodup_names_iff (stemsOf values)

theorem nodup_names_letters :
    ofValues? [.string "a", .string "A", .string "b_2"] =
        some [⟨"A", "\"a\""⟩, ⟨"A_2", "\"A\""⟩, ⟨"B_2", "\"b_2\""⟩] ∧
      (["A", "A_2", "B_2"] : List String).Nodup := by
  have hvalues : ofValues? [.string "a", .string "A", .string "b_2"] =
      some [⟨"A", "\"a\""⟩, ⟨"A_2", "\"A\""⟩, ⟨"B_2", "\"b_2\""⟩] := by decide +kernel
  refine ⟨hvalues, (nodup_names_ofValues?_iff hvalues).mpr ?_⟩
  intro stem n hn hcount hmem
  have hstems : stemsOf [.string "a", .string "A", .string "b_2"] = ["A", "A", "B_2"] := by
    decide +kernel
  rw [hstems] at hcount hmem
  have hstem : stem ∈ ["A", "A", "B_2"] := List.count_pos_iff.mp (by omega)
  simp only [List.mem_cons, List.not_mem_nil, or_false, or_self_left] at hstem
  rcases hstem with rfl | rfl
  · have htwice : ["A", "A", "B_2"].count "A" = 2 := by decide
    obtain rfl : n = 2 := by omega
    exact absurd hmem (by decide)
  · have honce : ["A", "A", "B_2"].count "B_2" = 1 := by decide
    omega

/-- Two texts share a stem, and the third one reads like the second occurrence of it. -/
theorem not_nodup_names_ofValues? :
    ¬ ∀ (values : List Json) (members : List EnumMember), ofValues? values = some members →
      (members.map EnumMember.name).Nodup := by
  intro h
  have hvalues : ofValues? [.string "a", .string "A", .string "A_2"] =
      some [⟨"A", "\"a\""⟩, ⟨"A_2", "\"A\""⟩, ⟨"A_2", "\"A_2\""⟩] := by decide +kernel
  exact absurd (h _ _ hvalues) (by decide)

end OpenApiTypings.EnumMember
