import OpenApiTypings.Declarations.Build
import OpenApiTypings.Proofs.Schema.Recompilation
import OpenApiTypings.Proofs.Table

/-!
# Components that are compiled in place

A request or a response compiles the components that it refers to once more, on its own
side of the wire.  It declares no enum by that: under the name of the component every
schema has the hint that it has in the component itself, it stands no higher, and no more
schemas are handed down than there.  So each enum it asks for was declared when the
components were compiled.
-/

namespace OpenApiTypings

namespace Schema

open Compilation (Stable SettledIn)

/-! ### Scopes in a component -/

/-- The first scope is that of the same schema in a component: it has the same hint, and
it is not the deeper one. -/
structure Scope.Covers (component scope : Scope) : Prop where
  mode : component.mode = .component
  hint : component.hint = scope.hint
  depth : component.depth ≤ scope.depth

namespace Scope.Covers

variable {component scope : Scope} (h : component.Covers scope)
include h

theorem deeper (step : Nat) : (component.deeper step).Covers (scope.deeper step) :=
  ⟨h.mode, h.hint, Nat.add_le_add_right h.depth step⟩

theorem part (part : Part) : (part.scopeIn component).Covers (part.scopeIn scope) where
  mode := h.mode
  hint := by
    show Text.joinHint component.hint part.segment = Text.joinHint scope.hint part.segment
    rw [h.hint]
  depth := Nat.add_le_add_right h.depth part.step

theorem exhausted (hscope : scope.exhausted = false) : component.exhausted = false := by
  unfold Scope.exhausted at hscope ⊢
  have hdepth := h.depth
  simp only [decide_eq_false_iff_not, Nat.not_lt] at hscope ⊢
  omega

end Scope.Covers

/-- The literals of a node depend on the hint of its scope alone. -/
theorem compileLiteral_eq_of_hint {node : Node} {scope scope' : Scope}
    (h : scope.hint = scope'.hint) : compileLiteral node scope = compileLiteral node scope' := by
  unfold compileLiteral compileListed
  rw [h]

/-! ### Nodes, nested schemas, references -/

/-- What is settled for nested schemas of a component is settled for the same schemas in
any place that it covers. -/
def SettledBelow (registry : Registry) (child' child : Child) : Prop :=
  ∀ component scope schema, component.Covers scope →
    (child' component schema).SettledIn registry → (child scope schema).SettledIn registry

section Inlined

variable {schemas : Table (RefOr Json)} {registry : Registry}

/-- A node is settled below the place where it is settled in a component. -/
theorem compileNode_settledIn_of_covers {child child' : Child} (hchild : StableChild child)
    (hchild' : StableChild child') (hnested : SettledBelow registry child' child)
    {component scope : Scope} (hcovers : component.Covers scope) {node : Node}
    (h : (compileNode child' node component).SettledIn registry) :
    (compileNode child node scope).SettledIn registry := by
  obtain ⟨hliteral, hparts⟩ := (compileNode_settledIn_iff hchild' node component registry).mp h
  refine (compileNode_settledIn_iff hchild node scope registry).mpr ⟨?_, fun part hpart => ?_⟩
  · rw [← compileLiteral_eq_of_hint hcovers.hint]
    exact hliteral
  · have hmem := nodeParts_subset_component scope.mode node hpart
    rw [← hcovers.mode] at hmem
    exact hnested _ _ part.schema (hcovers.part part) (hparts part hmem)

theorem compileNestedIn_stable (schemas : Table (RefOr Json)) (levels : Nat) :
    StableChild (compileNestedIn schemas levels) :=
  (stable_keptByLayers.compileIn schemas levels).2

section Layer

variable {follow : Follow} {child child' : Child}
  (hfollow : ∀ pointer scope, (follow pointer scope).SettledIn registry)
  (hchild : StableChild child) (hchild' : StableChild child')
  (hnested : SettledBelow registry child' child)
include hfollow hchild hchild' hnested

theorem compileSlotWith_settledIn {follow' : Follow} {slot : RefOr Json}
    {component scope : Scope} (hcovers : component.Covers scope)
    (h : (compileSlotWith follow' child' slot component).SettledIn registry) :
    (compileSlotWith follow child slot scope).SettledIn registry := by
  cases slot with
  | reference pointer => exact hfollow pointer scope
  | inline schema =>
    unfold compileSlotWith at h ⊢
    cases hscope : scope.exhausted with
    | true => exact SettledIn.bind (SettledIn.note _) fun _ => SettledIn.pure _
    | false =>
      rw [hcovers.exhausted hscope] at h
      cases hnode : Node.ofJson? schema with
      | none =>
        simp only [hnode]
        exact SettledIn.pure _
      | some node =>
        simp only [hnode] at h ⊢
        cases hreference : node.reference? with
        | some pointer => exact hfollow pointer scope
        | none =>
          simp only [hreference] at h
          exact compileNode_settledIn_of_covers hchild hchild' hnested hcovers h

theorem compileNestedWith_settledIn {follow' : Follow} :
    SettledBelow registry (compileNestedWith follow' child')
      (compileNestedWith follow child) := by
  intro component scope schema hcovers h
  unfold compileNestedWith at h ⊢
  cases hscope : scope.exhausted with
  | true => exact SettledIn.pure _
  | false =>
    rw [hcovers.exhausted hscope] at h
    cases hnode : Node.ofJson? schema with
    | none => exact SettledIn.pure _
    | some node =>
      simp only [hnode] at h ⊢
      cases hreference : node.reference? with
      | some pointer => exact hfollow pointer _
      | none =>
        simp only [hreference] at h ⊢
        cases hinner : (scope.deeper 1).exhausted with
        | true => exact SettledIn.bind (SettledIn.note _) fun _ => SettledIn.pure _
        | false =>
          rw [(hcovers.deeper 1).exhausted hinner] at h
          exact compileNode_settledIn_of_covers hchild hchild' hnested (hcovers.deeper 1) h

theorem compileReferenceWith_settledIn {follow' : Follow}
    (hslots : ∀ name slot, schemas.get? name = some slot →
      (compileSlotWith follow' child' slot (Scope.top .component name)).SettledIn registry)
    (pointer : String) (scope : Scope) :
    (compileReferenceWith schemas (compileSlotWith follow child) pointer scope).SettledIn
      registry := by
  unfold compileReferenceWith
  split
  · exact SettledIn.pure _
  rename_i name _
  split
  · exact SettledIn.pure _
  split
  · exact SettledIn.pure _
  rename_i target htarget
  split
  · exact SettledIn.bind (SettledIn.note _) fun _ => SettledIn.pure _
  -- the target was compiled as a component under the same name
  have hcovers : (Scope.top .component name).Covers (scope.renamed name 1) :=
    ⟨rfl, rfl, Nat.zero_le _⟩
  exact compileSlotWith_settledIn hfollow hchild hchild' hnested hcovers
    (hslots name target htarget)

end Layer

/-- What the components have settled, references and the schemas below them do not declare
again, whatever levels are left. -/
theorem compileIn_settledIn
    (hslots : ∀ name slot, schemas.get? name = some slot →
      (compile schemas slot (Scope.top .component name)).SettledIn registry)
    (levels : Nat) (hlevels : levels ≤ levelCount) :
    (∀ pointer scope, (compileReferenceIn schemas levels pointer scope).SettledIn registry) ∧
      ∀ levels', levels ≤ levels' →
        SettledBelow registry (compileNestedIn schemas levels')
          (compileNestedIn schemas levels) := by
  induction levels with
  | zero =>
    refine ⟨fun pointer scope => ?_, fun _ _ _ scope schema _ _ => ?_⟩
    · rw [compileReferenceIn]
      exact SettledIn.pure _
    · rw [compileNestedIn]
      exact SettledIn.pure _
  | succ levels ih =>
    obtain ⟨hfollow, hnested⟩ := ih (Nat.le_of_succ_le hlevels)
    have hchild := compileNestedIn_stable schemas levels
    refine ⟨fun pointer scope => ?_, fun levels' hle => ?_⟩
    · rw [compileReferenceIn]
      exact compileReferenceWith_settledIn hfollow hchild
        (compileNestedIn_stable schemas levelCount)
        (hnested levelCount (Nat.le_of_succ_le hlevels)) hslots pointer scope
    · -- the component had more levels left, which its depth makes no use of
      obtain ⟨more, rfl⟩ := Nat.exists_eq_add_of_le hle
      rw [Nat.add_right_comm]
      intro component scope schema
      rw [compileNestedIn, compileNestedIn]
      exact compileNestedWith_settledIn hfollow hchild
        (compileNestedIn_stable schemas (levels + more))
        (hnested (levels + more) (Nat.le_add_right levels more)) component scope schema

end Inlined

end Schema

/-! ### Documents -/

open Compilation (Stable SettledIn)

/-- Once the component schemas have been compiled, each of them is settled. -/
theorem compileSchemas_settledIn (doc : Document) (entries : Table (RefOr Json))
    (registry : Registry) {name : String} {slot : RefOr Json}
    (hentry : (name, slot) ∈ Table.sorted entries) :
    (Schema.compile doc.schemas slot (Schema.Scope.top .component name)).SettledIn
      ((compileSchemas doc entries).run registry).enums := by
  have hcompiled : ∀ name slot,
      (Schema.compile doc.schemas slot (Schema.Scope.top .component name)).Stable :=
    fun name slot => Schema.compile_stable doc.schemas slot _
  have hentries : ∀ entry ∈ Table.sorted entries, Stable (do
      let type ← Schema.compile doc.schemas entry.2 (Schema.Scope.top .component entry.1)
      return (entry.1, type.render)) :=
    fun entry _ => (hcompiled entry.1 entry.2).bind fun _ => Stable.pure _
  have hall := (Stable.mapM hentries).settledIn registry
  have hone := SettledIn.of_mapM hentries hall (name, slot) hentry
  exact (SettledIn.of_bind (hcompiled name slot) (fun _ => Stable.pure _) hone).1

/-- Compiling a component schema in place of a reference declares no enum, on either side
of the wire, at any depth, and whatever enums were declared since the component schemas
were compiled.  A document has each component schema under one name. -/
theorem inlining_declares_nothing (doc : Document) (hkeys : doc.schemas.keys.Nodup)
    (calls : List EnumCall) (pointer : String) (scope : Schema.Scope) :
    let components := ((compileSchemas doc doc.schemas).run Registry.empty).enums
    let registry := components.after calls
    ((Schema.compileReference doc.schemas pointer scope).run registry).enums = registry := by
  intro components registry
  have hslots : ∀ name slot, doc.schemas.get? name = some slot →
      (Schema.compile doc.schemas slot (Schema.Scope.top .component name)).SettledIn components :=
    fun name slot hget => compileSchemas_settledIn doc doc.schemas Registry.empty
      (Table.mem_sorted_of_nodup hkeys (Table.mem_of_get? hget))
  have hsettled := (Schema.compileIn_settledIn hslots Schema.levelCount (Nat.le_refl _)).1
  exact hsettled pointer scope registry ⟨calls, rfl⟩

/-- Pets have a parent and a kind, which is one of two. -/
def petDocument : Document where
  components := some
    { schemas := [("Pet", .inline (.object [("properties", .object
        [("id", .object [("enum", .array [.string "a", .string "b"]), ("readOnly", .bool true)]),
          ("kind", .object [("enum", .array [.string "cat", .string "dog"])]),
          ("parent", .object [("$ref", .string "#/components/schemas/Pet")])])]))] }

theorem inlining_declares_nothing_pet :
    petDocument.schemas.keys.Nodup ∧
      let components := ((compileSchemas petDocument petDocument.schemas).run Registry.empty).enums
      components.size = 2 ∧
        ((Schema.compileReference petDocument.schemas "#/components/schemas/Pet"
          (Schema.Scope.top .input "Create")).run components).enums = components := by
  refine ⟨by decide, by decide +kernel, ?_⟩
  exact inlining_declares_nothing petDocument (by decide) [] _ _

end OpenApiTypings
