import OpenApiTypings.Proofs.Enum.Registry

/-!
# Calls that were made before

A registry only grows, so two registries that lead to each other are equal.  A call that
was made once is answered by the same name forever after, and declares nothing: the
candidates in front of that name stay taken, and the name keeps its members.
-/

namespace OpenApiTypings

/-! ### Growth -/

theorem Table.length_insert_of_lookup_eq_none {α : Type} {key : String} {value : α}
    {entries : Table α} (hnew : List.lookup key entries = none) :
    (insert key value entries).length = entries.length + 1 := by
  induction entries with
  | nil => rfl
  | cons entry rest ih =>
    obtain ⟨k, v⟩ := entry
    rw [List.lookup_cons] at hnew
    by_cases heq : key = k
    · rw [beq_iff_eq.mpr heq] at hnew
      cases hnew
    · rw [beq_eq_false_iff_ne.mpr heq] at hnew
      unfold insert
      split
      · rfl
      · rw [List.length_cons, ih hnew, List.length_cons]

namespace EnumCall

/-- A call leaves the registry as it is, or it declares one enum under a new name. -/
theorem outcome_enums_eq_or (call : EnumCall) (registry : Registry) :
    (call.outcome registry).enums = registry ∨
      ∃ name members, registry.members? name = none ∧
        (call.outcome registry).enums = registry.declare name members := by
  cases hcall : call.members? with
  | none => exact Or.inl (outcome_of_none hcall registry).2
  | some members =>
    rw [(outcome_of_some hcall registry).2]
    split
    · exact Or.inl rfl
    · rename_i hother
      obtain ⟨n, hchoose, hserves, -⟩ := Registry.choose_spec registry call.base members
      rw [← hchoose] at hserves
      rcases Registry.serves_iff.mp hserves with hsame | ⟨hnone, -⟩
      · exact absurd hsame hother
      · exact Or.inr ⟨_, members, hnone, rfl⟩

/-- A call does not declare a reserved name. -/
theorem members?_outcome_of_mem_reserved (call : EnumCall) {registry : Registry}
    {name : String} (hreserved : name ∈ reservedNames)
    (hnone : registry.members? name = none) :
    (call.outcome registry).enums.members? name = none := by
  cases hcall : call.members? with
  | none => rw [(outcome_of_none hcall registry).2, hnone]
  | some members =>
    rw [members?_outcome_of_ne hcall registry, hnone]
    rintro rfl
    obtain ⟨n, hchoose, hserves, -⟩ := Registry.choose_spec registry call.base members
    rw [← hchoose] at hserves
    rcases Registry.serves_iff.mp hserves with hsome | ⟨-, hfree⟩
    · rw [hnone] at hsome
      cases hsome
    · exact hfree hreserved

end EnumCall

namespace Registry

theorem after_cons (registry : Registry) (call : EnumCall) (rest : List EnumCall) :
    registry.after (call :: rest) = (call.outcome registry).enums.after rest := rfl

theorem size_declare {registry : Registry} {name : String}
    (hnew : registry.members? name = none) (members : List EnumMember) :
    (registry.declare name members).size = registry.size + 1 :=
  Table.length_insert_of_lookup_eq_none hnew

/-- Further calls leave the registry as it is, or they make it larger. -/
theorem Reaches.eq_or_size_lt {registry later : Registry} (h : registry.Reaches later) :
    later = registry ∨ registry.size < later.size := by
  obtain ⟨calls, rfl⟩ := h
  induction calls generalizing registry with
  | nil => exact Or.inl rfl
  | cons call rest ih =>
    have hrest := @ih (call.outcome registry).enums
    rw [after_cons]
    rcases call.outcome_enums_eq_or registry with hsame | ⟨name, members, hnew, hdeclared⟩
    · rw [hsame] at hrest ⊢
      exact hrest
    · have hsize := size_declare hnew members
      rw [← hdeclared] at hsize
      right
      rcases hrest with heq | hlt
      · rw [heq]
        omega
      · omega

theorem Reaches.antisymm {registry later : Registry} (h : registry.Reaches later)
    (h' : later.Reaches registry) : later = registry := by
  rcases h.eq_or_size_lt with heq | hlt
  · exact heq
  · rcases h'.eq_or_size_lt with heq | hgt
    · exact heq.symm
    · omega

/-! ### Names that do not serve -/

/-- A reserved name is never declared. -/
theorem Reaches.members?_of_mem_reserved {registry later : Registry}
    (h : registry.Reaches later) {name : String} (hreserved : name ∈ reservedNames)
    (hnone : registry.members? name = none) : later.members? name = none := by
  obtain ⟨calls, rfl⟩ := h
  induction calls generalizing registry with
  | nil => exact hnone
  | cons call rest ih => exact ih (call.members?_outcome_of_mem_reserved hreserved hnone)

/-- A name that does not serve for members never will. -/
theorem Reaches.serves_eq_false {registry later : Registry} (h : registry.Reaches later)
    {members : List EnumMember} {name : String}
    (hno : registry.serves members name = false) : later.serves members name = false := by
  unfold serves at hno ⊢
  cases hfound : registry.members? name with
  | some existing =>
    rw [hfound] at hno
    rw [h.members? hfound]
    exact hno
  | none =>
    rw [hfound] at hno
    have hreserved : name ∈ reservedNames := by simpa using hno
    rw [h.members?_of_mem_reserved hreserved hfound]
    exact hno

/-- The name that was chosen for members, once they stand under it, is chosen again. -/
theorem choose_again {registry later : Registry} (h : registry.Reaches later)
    {base : String} {members : List EnumMember}
    (hfound : later.members? (registry.choose base members) = some members) :
    later.choose base members = registry.choose base members := by
  obtain ⟨n, hchoose, -, hfirst⟩ := choose_spec registry base members
  -- the candidates in front of the chosen one did not serve, and none of them ever will
  rw [hchoose] at hfound ⊢
  exact choose_eq_of_first (serves_iff.mpr (Or.inl hfound))
    fun k hk => h.serves_eq_false (hfirst k hk)

end Registry

/-- A call that was made before gives the same type again and declares nothing. -/
theorem EnumCall.outcome_again (call : EnumCall) {registry later : Registry}
    (h : (call.outcome registry).enums.Reaches later) :
    (call.outcome later).value = (call.outcome registry).value ∧
      (call.outcome later).enums = later := by
  cases hcall : call.members? with
  | none =>
    rw [(outcome_of_none hcall later).1, (outcome_of_none hcall registry).1]
    exact ⟨rfl, (outcome_of_none hcall later).2⟩
  | some members =>
    have hfound := h.members? (members?_outcome_self hcall registry)
    have hchoose := Registry.choose_again ((Registry.Reaches.call registry call).trans h) hfound
    rw [(outcome_of_some hcall later).1, (outcome_of_some hcall later).2, hchoose,
      (outcome_of_some hcall registry).1, if_pos hfound]
    exact ⟨rfl, rfl⟩

end OpenApiTypings
