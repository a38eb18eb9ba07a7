import OpenApiTypings.Proofs.Enum.Naming
import OpenApiTypings.Proofs.Lists
import OpenApiTypings.Proofs.Schema.Compilation
import OpenApiTypings.Proofs.Schema.Validity

/-!
# Constants and listed values

A value that equals a constant or one of several listed values lies in the type that is
made of them: in the declared enum where they make one, and in the union of their
literals otherwise.
-/

namespace OpenApiTypings

variable {lookups : Section → String → Json → Prop}

/-! ### Literals and members -/

theorem Literal.denotes_of_same {c v : Json} {l : Literal}
    (hinteger : ∀ n, c = .number n → ∃ i, n = .integer i) (hl : Literal.ofJson? c = some l)
    (hv : v.Same c) : l.Denotes v := by
  cases hv with
  | null =>
    cases hl
    rfl
  | bool b =>
    cases hl
    rfl
  | string s =>
    cases hl
    rfl
  | @number m n hvalue =>
    cases hl
    obtain ⟨i, rfl⟩ := hinteger n rfl
    exact ⟨m, rfl, by rw [Text.readDecimal?_integer, hvalue]; rfl⟩
  | array hitems => cases hl
  | object hfields => cases hl

namespace EnumMember

theorem exists_member_of_mem {values : List Json} {members : List EnumMember}
    (h : ofValues? values = some members) {c : Json} (hc : c ∈ values) :
    ∃ seed member, seedOf? c = some seed ∧ member ∈ members ∧
      member.value = seed.2.value := by
  obtain ⟨kind, seeds, hseeds, -, rfl⟩ := ofValues?_eq_some_iff.mp h
  obtain ⟨seed, hmem, hseed⟩ := exists_right_of_mem hseeds hc
  have hvalue : seed.value ∈ (nameAll [] seeds).map EnumMember.value := by
    rw [nameAll_values]
    exact List.mem_map_of_mem hmem
  obtain ⟨member, hmember, hsame⟩ := List.mem_map.mp hvalue
  exact ⟨(kind, seed), member, hseed, hmember, hsame⟩

/-- A value that equals a listed one is that of a member. -/
theorem denotes_of_same {values : List Json} {members : List EnumMember}
    (h : ofValues? values = some members) {c v : Json} (hc : c ∈ values)
    (hinteger : ∀ n, c = .number n → ∃ i, n = .integer i) (hv : v.Same c) :
    ∃ member ∈ members, member.Denotes v := by
  obtain ⟨seed, member, hseed, hmember, hvalue⟩ := exists_member_of_mem h hc
  refine ⟨member, hmember, ?_⟩
  cases hv with
  | string s =>
    cases hseed
    left
    exact ⟨s, rfl, by rw [hvalue, Text.readQuoted?_quote]⟩
  | @number m n hsame =>
    cases hseed
    obtain ⟨i, rfl⟩ := hinteger n rfl
    right
    exact ⟨m, rfl, by rw [hvalue, Text.readDecimal?_integer, hsame]; rfl⟩
  | null => cases hseed
  | bool b => cases hseed
  | array hitems => cases hseed
  | object hfields => cases hseed

end EnumMember

namespace Schema

open TypeExpr

/-! ### Nodes and their types -/

/-- The type has all values that the node admits. -/
def Node.Covers (lookups : Section → String → Json → Prop) (node : Node)
    (registry : Registry) (type : TypeExpr) : Prop :=
  ∀ v, ((node.nullable = true ∧ v = .null) ∨ node.Meets .inferred v) →
    type.Denotes lookups registry v

/-- A type that is given has all values of the node, and when none is given the node
leaves the decision to what comes next. -/
def Node.Settles (lookups : Section → String → Json → Prop) (node : Node) (next : Prop)
    (registry : Registry) : Option TypeExpr → Prop
  | some type => node.Covers lookups registry type
  | none => next

theorem denotes_orNull {node : Node} {type : TypeExpr} {registry : Registry} {v : Json}
    (h : (node.nullable = true ∧ v = .null) ∨ type.Denotes lookups registry v) :
    (orNull node type).Denotes lookups registry v := by
  unfold orNull
  rcases h with ⟨hnullable, rfl⟩ | hv
  · rw [hnullable]
    cases hnull : type.isNull with
    | false =>
      exact denotes_union.mpr ⟨.null, by simp, rfl⟩
    | true =>
      have htype : type = .null := by
        unfold isNull at hnull
        split at hnull
        · rfl
        · cases hnull
      subst htype
      rfl
  · split
    · exact denotes_union.mpr ⟨type, List.mem_cons_self .., hv⟩
    · exact hv

/-- Adding `null` is all that a nullable node needs. -/
theorem Node.covers_orNull {node : Node} {type : TypeExpr} {registry : Registry}
    (h : ∀ v, node.Meets .inferred v → type.Denotes lookups registry v) :
    node.Covers lookups registry (orNull node type) := by
  intro v hv
  apply denotes_orNull
  rcases hv with hnull | hmeets
  · exact Or.inl hnull
  · exact Or.inr (h v hmeets)

/-! ### Enums -/

theorem emitEnum_ensures (lookups : Section → String → Json → Prop) {hint : String}
    {values : List Json} {nullable : Bool}
    (hinteger : ∀ n, Json.number n ∈ values → ∃ i, n = .integer i) :
    (emitEnum hint values nullable).Ensures fun registry type? =>
      ∀ type, type? = some type → ∀ v,
        ((nullable = true ∧ v = .null) ∨ ∃ c ∈ values, v.Same c) →
          type.Denotes lookups registry v := by
  refine EnumCall.ensures ⟨hint, values, nullable⟩ ?_ ?_
  · intro _ registry type htype
    cases htype
  · intro members name registry hmembers hdeclared _ type htype v hv
    cases htype
    have hname : ∀ v, (∃ c ∈ values, v.Same c) →
        (enumRef name).Denotes lookups registry v := by
      rintro v ⟨c, hc, hsame⟩
      have hmember := EnumMember.denotes_of_same hmembers hc
        (fun n hn => hinteger n (hn ▸ hc)) hsame
      exact ⟨members, hdeclared, hmember⟩
    simp only [EnumCall.usage]
    split
    · rcases hv with ⟨-, rfl⟩ | hlisted
      · exact denotes_union.mpr ⟨.null, by simp, rfl⟩
      · exact denotes_union.mpr ⟨.enumRef name, List.mem_cons_self .., hname v hlisted⟩
    · rename_i hnot
      rcases hv with ⟨hnullable, -⟩ | hlisted
      · exact absurd hnullable hnot
      · exact hname v hlisted

section Listed

variable (lookups) {node : Node} (hflat : node.Flat)
include hflat

theorem compileListed_ensures (scope : Scope) :
    (compileListed node scope).Ensures
      (node.Settles lookups (node.enumValues? = none)) := by
  unfold compileListed
  cases hvalues : node.enumValues? with
  | none => exact Compilation.Ensures.pure fun _ => rfl
  | some values =>
    have hinteger := hflat.enum values hvalues
    refine Compilation.Ensures.bind (emitEnum_ensures lookups hinteger) fun type? => ?_
    cases type? with
    | some type =>
      refine Compilation.Ensures.pure fun registry htype v hv => ?_
      apply htype type rfl
      exact hv.imp_right fun hmeets => hmeets.asserts.enum values hvalues
    | none =>
      cases hliterals : values.mapM Literal.ofJson? with
      | none => exact Compilation.Ensures.pure fun _ _ => Node.covers_orNull fun _ _ => trivial
      | some literals =>
        refine Compilation.Ensures.pure fun registry _ => Node.covers_orNull fun v hmeets => ?_
        obtain ⟨c, hc, hsame⟩ := hmeets.asserts.enum values hvalues
        obtain ⟨l, hl, hcl⟩ := exists_right_of_mem (forall₂_of_mapM_eq_some hliterals) hc
        refine denotes_union.mpr ⟨.literal l, List.mem_map_of_mem hl, ?_⟩
        exact Literal.denotes_of_same (fun n hn => hinteger n (hn ▸ hc)) hcl hsame

/-- Listed values come next when there is no constant with a literal. -/
theorem compileListed_settles {P : Prop} (hP : P) (scope : Scope) :
    (compileListed node scope).Ensures
      (node.Settles lookups (P ∧ node.enumValues? = none)) := by
  refine (compileListed_ensures lookups hflat scope).mono fun registry type? htype => ?_
  cases type? with
  | some type => exact htype
  | none => exact ⟨hP, htype⟩

theorem compileLiteral_ensures (scope : Scope) :
    (compileLiteral node scope).Ensures
      (node.Settles lookups
        (node.const?.bind Literal.ofJson? = none ∧ node.enumValues? = none)) := by
  unfold compileLiteral
  cases hconst : node.const? with
  | none => exact compileListed_settles lookups hflat rfl scope
  | some value =>
    have hinteger : ∀ n, Json.number n ∈ [value] → ∃ i, n = .integer i := by
      intro n hn
      exact hflat.const n (by rw [hconst, List.mem_singleton.mp hn])
    refine Compilation.Ensures.bind (emitEnum_ensures lookups hinteger) fun type? => ?_
    cases type? with
    | some type =>
      refine Compilation.Ensures.pure fun registry htype v hv => ?_
      apply htype type rfl
      exact hv.imp_right fun hmeets =>
        ⟨value, List.mem_singleton.mpr rfl, hmeets.asserts.const value hconst⟩
    | none =>
      cases hliteral : Literal.ofJson? value with
      | some l =>
        refine Compilation.Ensures.pure fun registry _ => Node.covers_orNull fun v hmeets => ?_
        exact Literal.denotes_of_same (fun n hn => hinteger n (hn ▸ List.mem_singleton.mpr rfl))
          hliteral (hmeets.asserts.const value hconst)
      | none =>
        refine (compileListed_settles lookups hflat hliteral scope).mono ?_
        intro registry type? htype _
        exact htype

end Listed

end Schema

end OpenApiTypings
