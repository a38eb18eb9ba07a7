import OpenApiTypings.Schema.Compile

/-!
# What every layer keeps

The layers of the compiler are stacked by references and nested schemas, which call each
other one level down.  A property of computations that holds of the types that need no
layer, and that a node has as soon as its child has it, therefore holds of every
compilation; `KeptByLayers` is that induction.
-/

namespace OpenApiTypings.Schema

/-- A property of the types that are given without compiling a node, which a node has
whenever all its nested schemas have it. -/
structure KeptByLayers (P : Compilation TypeExpr → Prop) : Prop where
  unknown : P (pure .unknown)
  exhausted : ∀ event, P (Compilation.note event >>= fun _ => pure .unknown)
  component : ∀ name, P (pure (.component .schemas name))
  node : ∀ {child : Child}, (∀ scope schema, P (child scope schema)) →
    ∀ node scope, P (compileNode child node scope)

namespace KeptByLayers

variable {P : Compilation TypeExpr → Prop} (h : KeptByLayers P)
include h

section Layer

variable {follow : Follow} {child : Child} (hfollow : ∀ pointer scope, P (follow pointer scope))
  (hchild : ∀ scope schema, P (child scope schema))
include hfollow hchild

theorem compileSlotWith (slot : RefOr Json) (scope : Scope) :
    P (compileSlotWith follow child slot scope) := by
  unfold Schema.compileSlotWith
  split
  · exact hfollow _ scope
  split
  · exact h.exhausted _
  split
  · exact h.unknown
  split
  · exact hfollow _ scope
  · exact h.node hchild _ scope

theorem compileNestedWith (scope : Scope) (schema : Json) :
    P (compileNestedWith follow child scope schema) := by
  unfold Schema.compileNestedWith
  split
  · exact h.unknown
  split
  · exact h.unknown
  simp only
  split
  · exact hfollow _ _
  split
  · exact h.exhausted _
  · exact h.node hchild _ _

end Layer

theorem compileReferenceWith (schemas : Table (RefOr Json))
    {slot : RefOr Json → Scope → Compilation TypeExpr}
    (hslot : ∀ target scope, P (slot target scope)) (pointer : String) (scope : Scope) :
    P (compileReferenceWith schemas slot pointer scope) := by
  unfold Schema.compileReferenceWith
  split
  · exact h.unknown
  split
  · exact h.component _
  split
  · exact h.component _
  split
  · exact h.exhausted _
  · exact hslot _ _

/-- The property holds of references and of nested schemas, whatever levels are left. -/
theorem compileIn (schemas : Table (RefOr Json)) (levels : Nat) :
    (∀ pointer scope, P (compileReferenceIn schemas levels pointer scope)) ∧
      ∀ scope schema, P (compileNestedIn schemas levels scope schema) := by
  induction levels with
  | zero =>
    refine ⟨fun pointer scope => ?_, fun scope schema => ?_⟩
    · rw [compileReferenceIn]
      exact h.unknown
    · rw [compileNestedIn]
      exact h.unknown
  | succ levels ih =>
    obtain ⟨hfollow, hchild⟩ := ih
    refine ⟨fun pointer scope => ?_, fun scope schema => ?_⟩
    · rw [compileReferenceIn]
      exact h.compileReferenceWith schemas (h.compileSlotWith hfollow hchild) pointer scope
    · rw [compileNestedIn]
      exact h.compileNestedWith hfollow hchild scope schema

theorem compileNested (schemas : Table (RefOr Json)) (scope : Scope) (schema : Json) :
    P (compileNested schemas scope schema) :=
  (h.compileIn schemas levelCount).2 scope schema

theorem compile (schemas : Table (RefOr Json)) (slot : RefOr Json) (scope : Scope) :
    P (compile schemas slot scope) :=
  h.compileSlotWith (h.compileIn schemas levelCount).1 (h.compileNested schemas) slot scope

end KeptByLayers

/-! ### Component schemas -/

section Schemas

variable {schemas schemas' : Table (RefOr Json)}
  (h : ∀ name, schemas.get? name = schemas'.get? name)
include h

theorem compileReferenceWith_congr (slot : RefOr Json → Scope → Compilation TypeExpr)
    (pointer : String) (scope : Scope) :
    compileReferenceWith schemas slot pointer scope =
      compileReferenceWith schemas' slot pointer scope := by
  unfold compileReferenceWith
  cases Section.schemas.nameIn? pointer with
  | none => rfl
  | some name =>
    simp only
    rw [h name]

theorem compileIn_congr (levels : Nat) :
    compileReferenceIn schemas levels = compileReferenceIn schemas' levels ∧
      compileNestedIn schemas levels = compileNestedIn schemas' levels := by
  induction levels with
  | zero =>
    constructor
    · funext pointer scope
      rw [compileReferenceIn, compileReferenceIn]
    · funext scope schema
      rw [compileNestedIn, compileNestedIn]
  | succ levels ih =>
    obtain ⟨hfollow, hchild⟩ := ih
    constructor
    · funext pointer scope
      rw [compileReferenceIn, compileReferenceIn, hfollow, hchild]
      exact compileReferenceWith_congr h _ pointer scope
    · funext scope schema
      rw [compileNestedIn, compileNestedIn, hfollow, hchild]

/-- Of the component schemas of a document only the look-ups matter. -/
theorem compile_congr : compile schemas = compile schemas' := by
  obtain ⟨hfollow, hchild⟩ := compileIn_congr h levelCount
  have hreference : compileReference schemas = compileReference schemas' := hfollow
  have hnested : compileNested schemas = compileNested schemas' := hchild
  funext slot scope
  unfold compile
  rw [hreference, hnested]

end Schemas

end OpenApiTypings.Schema
