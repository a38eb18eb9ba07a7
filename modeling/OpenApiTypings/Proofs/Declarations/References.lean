import OpenApiTypings.Proofs.Declarations.Sections

/-!
# The references that a build follows

A build follows the slots of the components, of the items that paths and webhooks lead to, and
of the operations of these items.  It succeeds when all of them lead to objects, and otherwise
it fails with the failure of one of them.

Two kinds of slots are not followed in this sense: schemas, which are compiled whatever they
refer to, and headers of responses, which become unknown.
-/

namespace OpenApiTypings

/-! ### Followed slots -/

/-- A place for an object of a kind, which holds the object or a reference to it. -/
structure Slot where
  {Object : Type}
  kind : ComponentKind Object
  held : RefOr Object

/-- The slot leads to an object. -/
def Slot.Resolves (slot : Slot) (doc : Document) : Prop :=
  slot.kind.Resolves doc slot.held

/-- The slot leads to no object, for this reason. -/
def Slot.FailsFor (slot : Slot) (doc : Document) (cause : CompileCause) : Prop :=
  resolve slot.kind doc slot.held = .error cause

/-- A path or a webhook leads to the item. -/
def Document.HasItem (doc : Document) (item : PathItem) : Prop :=
  ∃ entry, (entry ∈ Table.sorted doc.paths ∨ entry ∈ Table.sorted doc.webhooks) ∧
    resolve .pathItem doc entry.2 = .ok item

/-- The slots that a build follows. -/
inductive Document.Follows (doc : Document) : Slot → Prop
  | component {components : Components} (hcomponents : doc.components = some components)
      {α : Type} {kind : ComponentKind α} {compile} (hkind : kind.CompiledBy doc compile)
      {entry : String × RefOr α} (hentry : entry ∈ Table.sorted (kind.entries components)) :
      Follows doc ⟨kind, entry.2⟩
  | path {entry : String × RefOr PathItem} (hentry : entry ∈ Table.sorted doc.paths) :
      Follows doc ⟨.pathItem, entry.2⟩
  | webhook {entry : String × RefOr PathItem} (hentry : entry ∈ Table.sorted doc.webhooks) :
      Follows doc ⟨.pathItem, entry.2⟩
  | itemParameter {item : PathItem} (hitem : doc.HasItem item) {held : RefOr Parameter}
      (hheld : held ∈ item.parameters) : Follows doc ⟨.parameter, held⟩
  | parameter {item : PathItem} (hitem : doc.HasItem item) {method : Method} {op : Operation}
      (hop : item.operation? method = some op) {held : RefOr Parameter}
      (hheld : held ∈ op.parameters) : Follows doc ⟨.parameter, held⟩
  | requestBody {item : PathItem} (hitem : doc.HasItem item) {method : Method} {op : Operation}
      (hop : item.operation? method = some op) {held : RefOr RequestBody}
      (hheld : op.requestBody = some held) : Follows doc ⟨.requestBody, held⟩
  | response {item : PathItem} (hitem : doc.HasItem item) {method : Method} {op : Operation}
      (hop : item.operation? method = some op) {entry : String × RefOr Response}
      (hentry : entry ∈ Table.sorted op.responses) : Follows doc ⟨.response, entry.2⟩

namespace Document

variable {doc : Document}

theorem Resolves.ofItem (h : doc.Resolves) {item : PathItem} (hitem : doc.HasItem item) :
    item.Resolves doc := by
  obtain ⟨entry, hentry, hresolve⟩ := hitem
  have hslot : PathItem.SlotResolves doc entry.2 := by
    rcases hentry with hpath | hwebhook
    · exact h.paths entry hpath
    · exact h.webhooks entry hwebhook
  obtain ⟨item', hresolve', hitem'⟩ := hslot
  cases hresolve.symm.trans hresolve'
  exact hitem'

/-- Every reference of a document can be resolved when every slot that is followed leads to an
object. -/
theorem resolves_iff : doc.Resolves ↔ ∀ slot, doc.Follows slot → slot.Resolves doc := by
  constructor
  · intro h slot hslot
    cases hslot with
    | component hcomponents hkind hentry =>
      have hresolves := h.components _ hcomponents
      cases hkind with
      | response => exact hresolves.responses _ hentry
      | requestBody => exact hresolves.requestBodies _ hentry
      | parameter => exact hresolves.parameters _ hentry
      | header => exact hresolves.headers _ hentry
      | securityScheme => exact hresolves.securitySchemes _ hentry
    | path hentry =>
      obtain ⟨item, hitem, -⟩ := h.paths _ hentry
      exact ⟨item, hitem⟩
    | webhook hentry =>
      obtain ⟨item, hitem, -⟩ := h.webhooks _ hentry
      exact ⟨item, hitem⟩
    | itemParameter hitem hheld => exact (h.ofItem hitem).parameters _ hheld
    | parameter hitem hop hheld => exact ((h.ofItem hitem).operations _ _ hop).parameters _ hheld
    | requestBody hitem hop hheld =>
      exact ((h.ofItem hitem).operations _ _ hop).requestBody _ hheld
    | response hitem hop hentry => exact ((h.ofItem hitem).operations _ _ hop).responses _ hentry
  · intro h
    have hslot : ∀ entry, entry ∈ Table.sorted doc.paths ∨ entry ∈ Table.sorted doc.webhooks →
        PathItem.SlotResolves doc entry.2 := by
      intro entry hentry
      have hfollowed : doc.Follows ⟨.pathItem, entry.2⟩ := by
        rcases hentry with hpath | hwebhook
        · exact .path hpath
        · exact .webhook hwebhook
      obtain ⟨item, hresolve⟩ := h _ hfollowed
      have hitem : doc.HasItem item := ⟨entry, hentry, hresolve⟩
      refine ⟨item, hresolve, fun held hheld => h _ (.itemParameter hitem hheld), ?_⟩
      intro method op hop
      exact ⟨fun held hheld => h _ (.parameter hitem hop hheld),
        fun held hheld => h _ (.requestBody hitem hop hheld),
        fun other hother => h _ (.response hitem hop hother)⟩
    refine ⟨?_, fun entry hentry => hslot entry (.inl hentry),
      fun entry hentry => hslot entry (.inr hentry)⟩
    intro components hcomponents
    exact ⟨fun entry hentry => h _ (.component hcomponents .response hentry),
      fun entry hentry => h _ (.component hcomponents .requestBody hentry),
      fun entry hentry => h _ (.component hcomponents .parameter hentry),
      fun entry hentry => h _ (.component hcomponents .header hentry),
      fun entry hentry => h _ (.component hcomponents .securityScheme hentry)⟩

end Document

/-! ### Builds that succeed -/

/-- A build succeeds just when every slot that it follows leads to an object. -/
theorem exists_build_iff_follows {doc : Document} :
    (∃ decls, build doc = .ok decls) ↔ ∀ slot, doc.Follows slot → slot.Resolves doc := by
  rw [← Document.resolves_iff, build_eq]
  obtain ⟨calls, hdoc⟩ := compileDocument_succeedsIff doc
  by_cases hresolves : doc.Resolves
  · obtain ⟨total, htotal, -⟩ := hdoc.ok hresolves
    rw [htotal]
    exact ⟨fun _ => hresolves, fun _ => ⟨_, rfl⟩⟩
  · obtain ⟨error, hvalue, -⟩ := hdoc.error hresolves Registry.empty
    rw [hvalue]
    exact ⟨nofun, fun h => absurd h hresolves⟩

theorem exists_error_of_follows {doc : Document} {slot : Slot} (hslot : doc.Follows slot)
    (hfails : ¬ slot.Resolves doc) : ∃ error, build doc = .error error := by
  cases hbuild : build doc with
  | ok decls => exact absurd (exists_build_iff_follows.mp ⟨decls, hbuild⟩ slot hslot) hfails
  | error error => exact ⟨error, rfl⟩

end OpenApiTypings
