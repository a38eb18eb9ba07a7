import OpenApiTypings.Document.Decoder
import OpenApiTypings.Proofs.Schema.Keywords
import OpenApiTypings.Proofs.Schema.Recursion

/-!
# Where a schema stands

A schema stands in a slot of the document, as a component or under a parameter or a media type,
or it is nested in another schema.  What is in a slot is decoded, and decoding tells references
from schemas in place; a nested schema is asked for its pointer when it is compiled, one level
below the schema around it.

Both ways come to the same, with one exception.  A text under `$ref` makes a reference of a
slot, whatever the text is.  In a nested schema an empty text is no pointer, and the schema is
compiled by its other keywords.
-/

namespace OpenApiTypings.Schema

section Nested

variable (schemas : Table (RefOr Json)) {entries : Table Json} {scope : Scope}
  (hscope : scope.exhausted = false)
include hscope

theorem compile_reference_eq_nested {pointer : String}
    (href : (Node.mk entries).reference? = some pointer) :
    compile schemas (.reference pointer) (scope.deeper 1) =
      compileNested schemas scope (.object entries) := by
  have hnode : Node.ofJson? (.object entries) = some ⟨entries⟩ := rfl
  have hnested := outcome_eq_step schemas (.nested (.object entries) scope)
  simp only [outcome, step, compileNestedBy, hscope, hnode, href, Bool.false_eq_true,
    if_false] at hnested
  exact hnested.symm

/-- Beyond the limit of depth neither of them looks at the schema. -/
theorem compile_inline_eq_nested (href : (Node.mk entries).reference? = none) :
    compile schemas (.inline (.object entries)) (scope.deeper 1) =
      compileNested schemas scope (.object entries) := by
  have hnode : Node.ofJson? (.object entries) = some ⟨entries⟩ := rfl
  have hnested := outcome_eq_step schemas (.nested (.object entries) scope)
  have hslot := outcome_eq_step schemas (.slot (.inline (.object entries)) (scope.deeper 1))
  simp only [outcome, step, compileNestedBy, compileSlotBy, hscope, hnode, href,
    Bool.false_eq_true, if_false] at hnested hslot
  rw [hnested, hslot]
  rfl

end Nested

/-- An empty pointer leads to no component. -/
theorem compile_reference_empty (schemas : Table (RefOr Json)) (scope : Scope) :
    compile schemas (.reference "") scope = pure .unknown := by
  have hname : Section.schemas.nameIn? "" = none := by decide +kernel
  have hstep := outcome_eq_step schemas (.reference "" scope)
  simp only [outcome, step, compileReferenceWith, hname] at hstep
  exact hstep

/-- A node is a reference for the text under `$ref`, unless that is empty. -/
theorem Node.reference?_eq_none_iff {node : Node} :
    node.reference? = none ↔
      ∀ pointer, node.get? "$ref" = some (.string pointer) → pointer = "" := by
  unfold Node.reference?
  cases hget : node.get? "$ref" with
  | none => simp
  | some value => cases value <;> simp [Json.string?]

/-- A schema in place is not read by its `$ref` when that is no pointer. -/
theorem compile_inline_congr (schemas : Table (RefOr Json)) {node node' : Node}
    (h : node.AgreeBut "$ref" node') (href : node.reference? = none)
    (href' : node'.reference? = none) (scope : Scope) :
    compile schemas (.inline (.object node.entries)) scope =
      compile schemas (.inline (.object node'.entries)) scope := by
  have hslot : ∀ node : Node, node.reference? = none →
      compile schemas (.inline (.object node.entries)) scope =
        if scope.exhausted then do
          Compilation.note (.depthExhausted scope.hint scope.depth)
          return .unknown
        else compileNode (compileNested schemas) node scope := by
    intro node href
    have hnode : Node.ofJson? (.object node.entries) = some node := rfl
    simp only [compile, compileSlotWith, hnode, href]
  rw [hslot node href, hslot node' href', h.compileNode (by decide) (by decide) (by decide)
    (by decide)]

/-! ### Slots -/

section Slots

variable {entries : Table Json}

theorem schemaSlot_of_text {pointer : String}
    (h : entries.get? "$ref" = some (.string pointer)) :
    Decoder.schemaSlot (.object entries) = .ok (.reference pointer) := by
  simp [Decoder.schemaSlot, Decoder.refOr, Decoder.pointer?, h, Json.string?]

theorem schemaSlot_of_not_text (h : ∀ pointer, entries.get? "$ref" ≠ some (.string pointer)) :
    Decoder.schemaSlot (.object entries) = .ok (.inline (.object entries)) := by
  have hpointer : (entries.get? "$ref").bind Json.string? = none := by
    cases hget : entries.get? "$ref" with
    | none => rfl
    | some value =>
      cases value with
      | string pointer => exact absurd hget (h pointer)
      | _ => rfl
  simp [Decoder.schemaSlot, Decoder.refOr, Decoder.pointer?, hpointer, Decoder.any]

end Slots

/-- A mapping has the same type, and declares the same enums, in a slot of the document and
nested in another schema, unless the text under its `$ref` is empty.  With an empty text the
slot is unknown, and the nested schema is the one without `$ref`. -/
theorem compile_slot_eq_nested (schemas : Table (RefOr Json)) {entries : Table Json}
    {scope : Scope} (hscope : scope.exhausted = false) :
    ∃ slot, Decoder.schemaSlot (.object entries) = .ok slot ∧
      (entries.get? "$ref" ≠ some (.string "") →
        compile schemas slot (scope.deeper 1) = compileNested schemas scope (.object entries)) ∧
      (entries.get? "$ref" = some (.string "") →
        compile schemas slot (scope.deeper 1) = pure .unknown ∧
        ∀ others, (Node.mk entries).AgreeBut "$ref" ⟨others⟩ → others.get? "$ref" = none →
          compileNested schemas scope (.object entries) =
            compileNested schemas scope (.object others)) := by
  by_cases htext : ∃ pointer, entries.get? "$ref" = some (.string pointer)
  · obtain ⟨pointer, hpointer⟩ := htext
    refine ⟨.reference pointer, schemaSlot_of_text hpointer, fun hne => ?_, fun hempty => ?_⟩
    · refine compile_reference_eq_nested schemas hscope ?_
      have hpointer' : (Node.mk entries).get? "$ref" = some (.string pointer) := hpointer
      have hne : pointer ≠ "" := by
        rintro rfl
        exact hne hpointer
      simp [Node.reference?, hpointer', Json.string?, hne]
    · obtain rfl : pointer = "" := by
        rw [hpointer] at hempty
        cases hempty
        rfl
      refine ⟨compile_reference_empty schemas _, fun others hagree hothers => ?_⟩
      have href : (Node.mk entries).reference? = none := by
        rw [Node.reference?_eq_none_iff]
        intro pointer h
        cases hpointer.symm.trans h
        rfl
      have href' : (Node.mk others).reference? = none := by
        rw [Node.reference?_eq_none_iff]
        intro pointer h
        cases hothers.symm.trans h
      rw [← compile_inline_eq_nested schemas hscope href,
        ← compile_inline_eq_nested schemas hscope href']
      exact compile_inline_congr schemas hagree href href' _
  · have hnone : ∀ pointer, entries.get? "$ref" ≠ some (.string pointer) := not_exists.mp htext
    refine ⟨.inline (.object entries), schemaSlot_of_not_text hnone, fun _ => ?_, fun hempty => ?_⟩
    · refine compile_inline_eq_nested schemas hscope ?_
      rw [Node.reference?_eq_none_iff]
      intro pointer h
      exact absurd h (hnone pointer)
    · exact absurd hempty (hnone "")

/-- An owner's pet at the last level that is looked at, in a request. -/
theorem compile_slot_eq_nested_pet :
    let schemas : Table (RefOr Json) :=
      [("Pet", .inline (.object [("enum", .array [.string "cat", .string "dog"])]))]
    let entries : Table Json :=
      [("$ref", .string "#/components/schemas/Pet"), ("type", .string "string")]
    let scope : Scope := ⟨28, .input, "Owner_pet"⟩
    scope.exhausted = false ∧
      ((compile schemas (.reference "#/components/schemas/Pet") (scope.deeper 1)).run
        Registry.empty).value.render = "PetEnum" ∧
      ((compileNested schemas scope (.object entries)).run
        Registry.empty).value.render = "PetEnum" := by
  intro schemas entries scope
  have hscope : scope.exhausted = false := by decide
  obtain ⟨slot, hslot, halike, -⟩ := @compile_slot_eq_nested schemas entries scope hscope
  have hget : entries.get? "$ref" = some (.string "#/components/schemas/Pet") := rfl
  cases hslot.symm.trans (schemaSlot_of_text hget)
  have hsame := halike (by rw [hget]; simp)
  rw [← hsame]
  have htext : ((compile schemas (.reference "#/components/schemas/Pet") (scope.deeper 1)).run
      Registry.empty).value.render = "PetEnum" := by decide +kernel
  exact ⟨hscope, htext, htext⟩

/-- A text with an empty pointer beside it is unknown in a slot, and a text when it is nested. -/
theorem not_compile_slot_eq_nested :
    ¬∀ (schemas : Table (RefOr Json)) (entries : Table Json) (scope : Scope) (slot : RefOr Json)
      (registry : Registry), scope.exhausted = false →
        Decoder.schemaSlot (.object entries) = .ok slot →
        ((compile schemas slot (scope.deeper 1)).run registry).value.render =
            ((compileNested schemas scope (.object entries)).run registry).value.render ∧
          ((compile schemas slot (scope.deeper 1)).run registry).enums =
            ((compileNested schemas scope (.object entries)).run registry).enums := by
  intro halike
  have hsame := halike [] [("$ref", .string ""), ("type", .string "string")]
    (Scope.top .component "") (.reference "") Registry.empty (by decide) (by rfl)
  have hne : ¬((compile [] (.reference "") ((Scope.top .component "").deeper 1)).run
        Registry.empty).value.render =
      ((compileNested [] (Scope.top .component "")
        (.object [("$ref", .string ""), ("type", .string "string")])).run
          Registry.empty).value.render := by decide +kernel
  exact hne hsame.1

end OpenApiTypings.Schema
