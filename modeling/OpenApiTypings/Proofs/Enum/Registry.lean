import OpenApiTypings.Proofs.Table
import OpenApiTypings.Schema.Compile
import Std.Data.String.ToNat

/-!
# Runs of the registry

The registry is extended by one kind of step alone, a call that declares listed values
under a hint.  This module says what one call does: the name it gives is the first
candidate that serves, the members stand under that name afterwards, and no other name
changes.  `Reaches` relates a registry to those that any further calls lead to; a name
keeps its members along it, and all enums that are added are those that some call may declare.
-/

namespace OpenApiTypings

namespace Registry

/-! ### Candidates -/

theorem candidate_injective (base : String) {m n : Nat}
    (heq : candidate base m = candidate base n) : m = n := by
  have hbare : ∀ k, base ≠ base ++ toString (k + 2) := by
    intro k hk
    have hnil := String.append_right_inj base |>.mp ((String.append_empty).trans hk)
    exact Nat.repr_ne_empty hnil.symm
  cases m with
  | zero =>
    cases n with
    | zero => rfl
    | succ n => exact absurd heq (hbare n)
  | succ m =>
    cases n with
    | zero => exact absurd heq.symm (hbare m)
    | succ n =>
      have hdigits : Nat.repr (m + 2) = Nat.repr (n + 2) :=
        (String.append_right_inj base).mp heq
      have := Nat.repr_injective hdigits
      omega

theorem serves_iff {registry : Registry} {members : List EnumMember} {name : String} :
    registry.serves members name = true ↔
      registry.members? name = some members ∨
        (registry.members? name = none ∧ name ∉ reservedNames) := by
  unfold serves
  cases hfound : registry.members? name with
  | none => simp
  | some existing => simp

/-- A name that does not serve is that of a declared enum, or reserved. -/
theorem mem_of_not_serves {registry : Registry} {members : List EnumMember}
    {name : String} (hno : registry.serves members name = false) :
    name ∈ registry.entries.keys ++ reservedNames := by
  rw [List.mem_append]
  cases hfound : registry.members? name with
  | none =>
    right
    by_cases hreserved : name ∈ reservedNames
    · exact hreserved
    · have hserves : registry.serves members name = true :=
        serves_iff.mpr (Or.inr ⟨hfound, hreserved⟩)
      exact absurd (hserves.symm.trans hno) Bool.noConfusion
  | some existing =>
    left
    exact List.mem_map.mpr ⟨(name, existing), Table.mem_of_get? hfound, rfl⟩

/-- There are more candidates to be tried than names that can stand in the way. -/
theorem exists_serving_candidate (registry : Registry) (base : String)
    (members : List EnumMember) :
    ∃ n < registry.size + reservedNames.length + 1,
      registry.serves members (candidate base n) = true := by
  -- more distinct names are tried than are taken or reserved
  refine Classical.byContradiction fun hnone => ?_
  let tried := (List.range (registry.size + reservedNames.length + 1)).map (candidate base)
  have hdistinct : tried.Nodup :=
    List.Pairwise.map _ (fun m n hne heq => hne (candidate_injective base heq))
      List.nodup_range
  have hblocked : tried ⊆ registry.entries.keys ++ reservedNames := by
    intro name hname
    obtain ⟨n, hn, rfl⟩ := List.mem_map.mp hname
    have hno : registry.serves members (candidate base n) = false := by
      cases hserves : registry.serves members (candidate base n) with
      | false => rfl
      | true => exact absurd ⟨n, List.mem_range.mp hn, hserves⟩ hnone
    exact mem_of_not_serves hno
  have hlength := hdistinct.length_le_of_subset hblocked
  simp only [tried, List.length_map, List.length_range, List.length_append, Table.keys,
    size] at hlength
  omega

/-- The name that is chosen is the first candidate that serves. -/
theorem choose_spec (registry : Registry) (base : String) (members : List EnumMember) :
    ∃ n, registry.choose base members = candidate base n ∧
      registry.serves members (candidate base n) = true ∧
      ∀ k < n, registry.serves members (candidate base k) = false := by
  unfold choose
  cases hfind : (List.range (registry.size + reservedNames.length + 1)).find?
      (fun n => registry.serves members (candidate base n)) with
  | none =>
    obtain ⟨n, hn, hserves⟩ := exists_serving_candidate registry base members
    exact absurd hserves (List.find?_eq_none.mp hfind n (List.mem_range.mpr hn))
  | some n =>
    obtain ⟨hserves, -, hfirst⟩ := List.find?_range_eq_some.mp hfind
    exact ⟨n, by simp only [hfind], hserves, fun k hk => by simpa using hfirst k hk⟩

theorem choose_eq_of_first {registry : Registry} {base : String}
    {members : List EnumMember} {n : Nat}
    (hserves : registry.serves members (candidate base n) = true)
    (hfirst : ∀ k < n, registry.serves members (candidate base k) = false) :
    registry.choose base members = candidate base n := by
  obtain ⟨m, hchoose, hm, hbelow⟩ := choose_spec registry base members
  rcases Nat.lt_trichotomy m n with hlt | heq | hgt
  · rw [hfirst m hlt] at hm
    exact absurd hm Bool.noConfusion
  · rw [hchoose, heq]
  · rw [hbelow n hgt] at hserves
    exact absurd hserves Bool.noConfusion

/-! ### Declaring -/

theorem members?_declare_self (registry : Registry) (name : String)
    (members : List EnumMember) :
    (registry.declare name members).members? name = some members :=
  Table.lookup_insert_self name members registry.entries

theorem members?_declare_of_ne (registry : Registry) {name other : String}
    (hne : other ≠ name) (members : List EnumMember) :
    (registry.declare name members).members? other = registry.members? other :=
  Table.lookup_insert_of_ne hne members registry.entries

end Registry

namespace Compilation

theorem register_value (base : String) (members : List EnumMember) (registry : Registry) :
    ((register base members).run registry).value = registry.choose base members := by
  simp only [run, register]
  split <;> rfl

/-- Registering declares the chosen name unless it stands for the members already. -/
theorem register_enums (base : String) (members : List EnumMember) (registry : Registry) :
    ((register base members).run registry).enums =
      if registry.members? (registry.choose base members) = some members then registry
      else registry.declare (registry.choose base members) members := by
  obtain ⟨n, hchoose, hserves, -⟩ := Registry.choose_spec registry base members
  simp only [run, register]
  rw [← hchoose] at hserves
  rcases Registry.serves_iff.mp hserves with hfound | ⟨hnone, -⟩
  · rw [hfound, if_pos rfl]
  · rw [hnone]
    exact (if_neg nofun).symm

end Compilation

/-! ### Calls -/

/-- A call that declares values under a hint. -/
structure EnumCall where
  hint : String
  values : List Json
  nullable : Bool

namespace EnumCall

/-- The name the call asks for. -/
def base (call : EnumCall) : String := EnumDecl.baseName call.hint call.values

/-- The members the call asks for; none when its values make no enum. -/
def members? (call : EnumCall) : Option (List EnumMember) :=
  EnumMember.ofValues? call.values

/-- What the call gives on a registry. -/
def outcome (call : EnumCall) (registry : Registry) : Outcome (Option TypeExpr) :=
  (Schema.emitEnum call.hint call.values call.nullable).run registry

/-- The type that stands for a declared enum, with `null` where it is admitted. -/
def usage (call : EnumCall) (name : String) : TypeExpr :=
  if call.nullable then .union [.enumRef name, .null] else .enumRef name

theorem outcome_of_none {call : EnumCall} (hnone : call.members? = none)
    (registry : Registry) :
    (call.outcome registry).value = none ∧ (call.outcome registry).enums = registry := by
  have hmembers : EnumMember.ofValues? call.values = none := hnone
  simp [outcome, Schema.emitEnum, hmembers]

theorem outcome_of_some {call : EnumCall} {members : List EnumMember}
    (hsome : call.members? = some members) (registry : Registry) :
    (call.outcome registry).value =
        some (call.usage (registry.choose call.base members)) ∧
      (call.outcome registry).enums =
        if registry.members? (registry.choose call.base members) = some members then
          registry
        else registry.declare (registry.choose call.base members) members := by
  have hmembers : EnumMember.ofValues? call.values = some members := hsome
  simp only [outcome, Schema.emitEnum, hmembers, Compilation.run_bind,
    Compilation.run_pure, Compilation.register_value, Compilation.register_enums]
  exact ⟨rfl, rfl⟩

/-- The chosen name stands for the members after the call. -/
theorem members?_outcome_self {call : EnumCall} {members : List EnumMember}
    (hsome : call.members? = some members) (registry : Registry) :
    (call.outcome registry).enums.members? (registry.choose call.base members) =
      some members := by
  rw [(outcome_of_some hsome registry).2]
  split
  · assumption
  · exact Registry.members?_declare_self ..

/-- A call declares at most the chosen name. -/
theorem members?_outcome_of_ne {call : EnumCall} {members : List EnumMember}
    (hsome : call.members? = some members) (registry : Registry) {name : String}
    (hne : name ≠ registry.choose call.base members) :
    (call.outcome registry).enums.members? name = registry.members? name := by
  rw [(outcome_of_some hsome registry).2]
  split
  · rfl
  · exact Registry.members?_declare_of_ne _ hne _

/-- A name that stands for members stands for them after every call. -/
theorem members?_outcome_of_some (call : EnumCall) {registry : Registry} {name : String}
    {members : List EnumMember} (hfound : registry.members? name = some members) :
    (call.outcome registry).enums.members? name = some members := by
  cases hcall : call.members? with
  | none => rw [(outcome_of_none hcall registry).2, hfound]
  | some asked =>
    by_cases hname : name = registry.choose call.base asked
    · obtain ⟨n, hchoose, hserves, -⟩ := Registry.choose_spec registry call.base asked
      rw [← hchoose, ← hname] at hserves
      rcases Registry.serves_iff.mp hserves with hsame | ⟨hnone, -⟩
      · rw [hname, members?_outcome_self hcall, ← hsame, hfound]
      · exact absurd (hnone.symm.trans hfound) (by simp)
    · rw [members?_outcome_of_ne hcall registry hname, hfound]

/-- What the call may declare: the members it asks for, under a candidate for the name. -/
def MayDeclare (call : EnumCall) (entry : String × List EnumMember) : Prop :=
  call.members? = some entry.2 ∧ ∃ n, entry.1 = Registry.candidate call.base n

/-- A call adds no other enums. -/
theorem mem_outcome_entries (call : EnumCall) {registry : Registry}
    {entry : String × List EnumMember} (hentry : entry ∈ (call.outcome registry).enums.entries) :
    entry ∈ registry.entries ∨ call.MayDeclare entry := by
  cases hcall : call.members? with
  | none =>
    rw [(outcome_of_none hcall registry).2] at hentry
    exact Or.inl hentry
  | some members =>
    rw [(outcome_of_some hcall registry).2] at hentry
    split at hentry
    · exact Or.inl hentry
    · rcases Table.mem_of_mem_insert hentry with rfl | hold
      · obtain ⟨n, hchoose, -⟩ := Registry.choose_spec registry call.base members
        exact Or.inr ⟨hcall, n, hchoose⟩
      · exact Or.inl hold

end EnumCall

/-! ### Runs -/

namespace Registry

/-- The registry after a list of calls. -/
def after (registry : Registry) (calls : List EnumCall) : Registry :=
  calls.foldl (fun current call => (call.outcome current).enums) registry

@[simp] theorem after_nil (registry : Registry) : registry.after [] = registry := rfl

theorem after_append (registry : Registry) (calls more : List EnumCall) :
    registry.after (calls ++ more) = (registry.after calls).after more :=
  List.foldl_append

theorem after_concat (registry : Registry) (calls : List EnumCall) (call : EnumCall) :
    registry.after (calls ++ [call]) = (call.outcome (registry.after calls)).enums :=
  after_append registry calls [call]

/-- Further calls lead from one registry to the other. -/
def Reaches (registry later : Registry) : Prop :=
  ∃ calls, registry.after calls = later

theorem Reaches.refl (registry : Registry) : registry.Reaches registry := ⟨[], rfl⟩

theorem Reaches.trans {first second third : Registry} (h : first.Reaches second)
    (h' : second.Reaches third) : first.Reaches third := by
  obtain ⟨calls, rfl⟩ := h
  obtain ⟨more, rfl⟩ := h'
  exact ⟨calls ++ more, after_append ..⟩

theorem Reaches.call (registry : Registry) (call : EnumCall) :
    registry.Reaches (call.outcome registry).enums := ⟨[call], rfl⟩

/-- A name keeps its members. -/
theorem Reaches.members? {registry later : Registry} (h : registry.Reaches later)
    {name : String} {members : List EnumMember}
    (hfound : registry.members? name = some members) :
    later.members? name = some members := by
  obtain ⟨calls, rfl⟩ := h
  induction calls generalizing registry with
  | nil => exact hfound
  | cons call rest ih => exact ih (call.members?_outcome_of_some hfound)

/-- Every enum that was not declared before is one that a call may declare. -/
theorem Reaches.mem_entries {registry later : Registry} (h : registry.Reaches later)
    {entry : String × List EnumMember} (hentry : entry ∈ later.entries) :
    entry ∈ registry.entries ∨ ∃ call : EnumCall, call.MayDeclare entry := by
  obtain ⟨calls, rfl⟩ := h
  induction calls generalizing registry with
  | nil => exact Or.inl hentry
  | cons call rest ih =>
    rcases ih hentry with hcall | hlater
    · exact (call.mem_outcome_entries hcall).imp_right fun hdeclared => ⟨call, hdeclared⟩
    · exact Or.inr hlater

end Registry

end OpenApiTypings
