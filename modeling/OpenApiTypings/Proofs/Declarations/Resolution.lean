import OpenApiTypings.Declarations.Build
import OpenApiTypings.Proofs.Schema.Calls

/-!
# When a build succeeds

A build follows the references of components, of items and of operations, and it fails as
soon as one of them cannot be resolved.  Nothing else makes it fail: schemas are compiled
whatever they hold, a header of a response that cannot be resolved becomes unknown, and a
parameter in an unknown location is left out.

Which references a build follows does not depend on the enums that it declares.  So each
step either fails whatever is declared, or is a computation that makes calls and does not
fail; `SucceedsIff` says which, and for each function of the builder there is one lemma.
-/

namespace OpenApiTypings

/-! ### References that can be resolved -/

/-- The failure of a reference. -/
def CompileCause.OfReference : CompileCause → Prop
  | .unsupportedReference _ => True
  | .missingComponent _ _ => True
  | .nestedReference _ _ => True
  | .noDocument => False
  | .json _ => False
  | .yaml _ => False

/-- The slot holds an object, or a reference that leads to one. -/
def ComponentKind.Resolves (kind : ComponentKind α) (doc : Document) (slot : RefOr α) : Prop :=
  ∃ value, resolve kind doc slot = .ok value

theorem resolve_error {kind : ComponentKind α} {doc : Document} {slot : RefOr α}
    {cause : CompileCause} (h : resolve kind doc slot = .error cause) : cause.OfReference := by
  unfold resolve at h
  split at h
  · cases h
  split at h
  · split at h
    · cases h
      trivial
    · cases h
      trivial
    · cases h
  · cases h
    trivial

/-- Every reference of an operation can be resolved. -/
structure Operation.Resolves (doc : Document) (op : Operation) : Prop where
  parameters : ∀ slot ∈ op.parameters, ComponentKind.parameter.Resolves doc slot
  requestBody : ∀ slot, op.requestBody = some slot → ComponentKind.requestBody.Resolves doc slot
  responses : ∀ entry ∈ Table.sorted op.responses, ComponentKind.response.Resolves doc entry.2

/-- Every reference of an item can be resolved, those of its operations included. -/
structure PathItem.Resolves (doc : Document) (item : PathItem) : Prop where
  parameters : ∀ slot ∈ item.parameters, ComponentKind.parameter.Resolves doc slot
  operations : ∀ method op, item.operation? method = some op → op.Resolves doc

/-- The slot leads to an item, and every reference of that item can be resolved. -/
def PathItem.SlotResolves (doc : Document) (slot : RefOr PathItem) : Prop :=
  ∃ item, resolve .pathItem doc slot = .ok item ∧ item.Resolves doc

/-- Every component that is declared under a name is an object or a reference that leads to
one.  Schemas need not, and items are followed from paths and webhooks alone. -/
structure Components.Resolves (doc : Document) (components : Components) : Prop where
  responses : ∀ entry ∈ Table.sorted components.responses,
    ComponentKind.response.Resolves doc entry.2
  requestBodies : ∀ entry ∈ Table.sorted components.requestBodies,
    ComponentKind.requestBody.Resolves doc entry.2
  parameters : ∀ entry ∈ Table.sorted components.parameters,
    ComponentKind.parameter.Resolves doc entry.2
  headers : ∀ entry ∈ Table.sorted components.headers, ComponentKind.header.Resolves doc entry.2
  securitySchemes : ∀ entry ∈ Table.sorted components.securitySchemes,
    ComponentKind.securityScheme.Resolves doc entry.2

/-- Every reference that a build follows can be resolved.  A table stands for the mapping that
`Table.sorted` makes of it: where a key is repeated, the last entry counts. -/
structure Document.Resolves (doc : Document) : Prop where
  components : ∀ components, doc.components = some components → components.Resolves doc
  paths : ∀ entry ∈ Table.sorted doc.paths, PathItem.SlotResolves doc entry.2
  webhooks : ∀ entry ∈ Table.sorted doc.webhooks, PathItem.SlotResolves doc entry.2

/-! ### Steps that succeed or fail whatever is declared -/

namespace Build

open Compilation (Makes)

/-- The step fails for a reference, whatever enums are declared. -/
def Fails (m : Build α) : Prop :=
  ∀ registry, ∃ error : CompileError,
    (Compilation.run m.run registry).value = .error error ∧ error.cause.OfReference

/-- The step succeeds just when `p` holds, whatever enums are declared, and then it makes the
calls. -/
structure SucceedsIff (m : Build α) (p : Prop) (calls : List EnumCall) : Prop where
  ok : p → ∃ total : Compilation α, m = ofCompilation total ∧ total.Makes calls
  error : ¬p → m.Fails

theorem ofCompilation_bind (total : Compilation α) (next : α → Compilation β) :
    (ofCompilation total >>= fun a => ofCompilation (next a)) = ofCompilation (total >>= next) := by
  apply ExceptT.ext
  simp only [ofCompilation, ExceptT.run_bind, ExceptT.run_lift, map_bind, bind_map_left]

theorem inside_ofCompilation (context : String) (total : Compilation α) :
    inside context (ofCompilation total) = ofCompilation total := by
  apply ExceptT.ext
  simp only [ofCompilation, inside, ExceptT.run_adapt, ExceptT.run_lift, Functor.map_map]
  rfl

namespace Fails

variable {m : Build α}

theorem bind (h : m.Fails) (f : α → Build β) : Fails (m >>= f) := by
  intro registry
  obtain ⟨error, hvalue, hcause⟩ := h registry
  refine ⟨error, ?_, hcause⟩
  rw [ExceptT.run_bind, Compilation.run_bind, hvalue]
  rfl

theorem inside (h : m.Fails) (context : String) : Fails (inside context m) := by
  intro registry
  obtain ⟨error, hvalue, hcause⟩ := h registry
  refine ⟨error.within context, ?_, hcause⟩
  show Except.mapError _ (Compilation.run m.run registry).value = _
  rw [hvalue]
  rfl

end Fails

/-- The step gives the object that the slot leads to, and fails when it leads to none. -/
structure Follows (m : Build α) (kind : ComponentKind α) (doc : Document) (slot : RefOr α) :
    Prop where
  ok : ∀ value, resolve kind doc slot = .ok value → m = pure value
  error : ¬kind.Resolves doc slot → m.Fails

namespace Follows

variable {m : Build α} {kind : ComponentKind α} {doc : Document} {slot : RefOr α}

theorem ofResolved : Follows (ofResolved (resolve kind doc slot)) kind doc slot where
  ok value hvalue := by
    rw [hvalue]
    rfl
  error hslot := by
    cases hresolve : resolve kind doc slot with
    | ok value => exact absurd ⟨value, hresolve⟩ hslot
    | error cause => exact fun registry => ⟨.ofCause cause, rfl, resolve_error hresolve⟩

theorem inside (h : m.Follows kind doc slot) (context : String) :
    Follows (inside context m) kind doc slot where
  ok value hvalue := by
    rw [h.ok value hvalue]
    rfl
  error hslot := (h.error hslot).inside context

end Follows

namespace SucceedsIff

variable {m : Build α} {f : α → Build β} {p q : Prop} {calls more : List EnumCall}

theorem congr (h : m.SucceedsIff p calls) (hiff : p ↔ q) : m.SucceedsIff q calls :=
  ⟨fun hq => h.ok (hiff.mpr hq), fun hq => h.error (mt hiff.mp hq)⟩

theorem ofCompilation {total : Compilation α} (h : total.Makes calls) :
    SucceedsIff (ofCompilation total) True calls :=
  ⟨fun _ => ⟨total, rfl, h⟩, fun h => absurd trivial h⟩

theorem pure (a : α) : SucceedsIff (Pure.pure a : Build α) True [] :=
  ofCompilation (Makes.pure a)

theorem inside (context : String) (h : m.SucceedsIff p calls) :
    SucceedsIff (inside context m) p calls where
  ok hp := by
    obtain ⟨total, rfl, hmakes⟩ := h.ok hp
    exact ⟨total, inside_ofCompilation context total, hmakes⟩
  error hp := (h.error hp).inside context

/-- Two steps succeed when both do, where the second does so whatever the first one gives. -/
theorem bind (hm : m.SucceedsIff p calls) (hf : ∀ a, (f a).SucceedsIff q more) :
    SucceedsIff (m >>= f) (p ∧ q) (calls ++ more) where
  ok := by
    rintro ⟨hp, hq⟩
    obtain ⟨total, rfl, hmakes⟩ := hm.ok hp
    choose next hnext hmakes' using fun a => (hf a).ok hq
    refine ⟨total >>= next, ?_, hmakes.bind hmakes'⟩
    rw [← ofCompilation_bind, funext hnext]
  error := by
    intro hpq
    by_cases hp : p
    · have hq : ¬q := fun hq => hpq ⟨hp, hq⟩
      obtain ⟨total, rfl, -⟩ := hm.ok hp
      intro registry
      exact (hf _).error hq _
    · exact (hm.error hp).bind f

theorem last (hm : m.SucceedsIff p calls) (hf : ∀ a, (f a).SucceedsIff True []) :
    SucceedsIff (m >>= f) p calls := by
  have hbind := hm.bind hf
  rw [List.append_nil] at hbind
  exact hbind.congr (and_iff_left trivial)

/-- Following a slot and going on with its object. -/
theorem follow {kind : ComponentKind α} {doc : Document} {slot : RefOr α} {q : α → Prop}
    (hm : m.Follows kind doc slot)
    (hf : ∀ value, resolve kind doc slot = .ok value →
      ∃ calls, (f value).SucceedsIff (q value) calls) :
    ∃ calls, SucceedsIff (m >>= f) (∃ value, resolve kind doc slot = .ok value ∧ q value)
      calls := by
  by_cases hslot : kind.Resolves doc slot
  · obtain ⟨value, hvalue⟩ := hslot
    obtain ⟨calls, hcalls⟩ := hf value hvalue
    refine ⟨calls, ?_⟩
    rw [hm.ok value hvalue, pure_bind]
    refine hcalls.congr ⟨fun hq => ⟨value, hvalue, hq⟩, ?_⟩
    rintro ⟨value', hvalue', hq⟩
    rw [hvalue] at hvalue'
    cases hvalue'
    exact hq
  · refine ⟨[], fun ⟨value, hvalue, _⟩ => absurd ⟨value, hvalue⟩ hslot, fun _ => ?_⟩
    exact (hm.error hslot).bind f

/-- Following a slot and going on with a computation that does not fail. -/
theorem follow_total {kind : ComponentKind α} {doc : Document} {slot : RefOr α}
    (hm : m.Follows kind doc slot) (hf : ∀ value, ∃ calls, (f value).SucceedsIff True calls) :
    ∃ calls, SucceedsIff (m >>= f) (kind.Resolves doc slot) calls := by
  obtain ⟨calls, h⟩ := follow (q := fun _ => True) hm fun value _ => hf value
  exact ⟨calls, h.congr (exists_congr fun _ => and_iff_left trivial)⟩

/-- A list of steps, in whatever variant of each, succeeds when all of them do. -/
theorem mapM_variant {ι : Type} {g : ι → α → Build β} {xs : List α} {q : α → Prop}
    (hg : ∀ x ∈ xs, ∃ calls, ∀ i, (g i x).SucceedsIff (q x) calls) :
    ∃ calls, ∀ i, SucceedsIff (xs.mapM (g i)) (∀ x ∈ xs, q x) calls := by
  induction xs with
  | nil =>
    refine ⟨[], fun i => ?_⟩
    rw [List.mapM_nil]
    exact (pure []).congr ⟨fun _ x hx => absurd hx List.not_mem_nil, fun _ => trivial⟩
  | cons x rest ih =>
    obtain ⟨calls, hx⟩ := hg x (List.mem_cons_self ..)
    obtain ⟨more, hrest⟩ := ih fun x' hx' => hg x' (List.mem_cons_of_mem _ hx')
    refine ⟨calls ++ more, fun i => ?_⟩
    rw [List.mapM_cons]
    have hboth := (hx i).bind fun y => (hrest i).last fun ys => pure (y :: ys)
    exact hboth.congr List.forall_mem_cons.symm

theorem mapM {g : α → Build β} {xs : List α} {q : α → Prop}
    (hg : ∀ x ∈ xs, ∃ calls, (g x).SucceedsIff (q x) calls) :
    ∃ calls, SucceedsIff (xs.mapM g) (∀ x ∈ xs, q x) calls := by
  obtain ⟨calls, h⟩ := mapM_variant (g := fun _ : Unit => g) fun x hx => by
    obtain ⟨calls, hcalls⟩ := hg x hx
    exact ⟨calls, fun _ => hcalls⟩
  exact ⟨calls, h ()⟩

end SucceedsIff

end Build

/-! ### Bodies, parameters and headers -/

section Compiled

open Build (SucceedsIff Follows)
open Compilation (Makes)

variable (doc : Document)

theorem contentType_makes (content : Table MediaType) (empty : TypeExpr) (hint : String)
    (mode : Schema.Mode) : ∃ calls, (contentType doc content empty hint mode).Makes calls := by
  unfold contentType
  split
  · exact ⟨_, Makes.pure empty⟩
  obtain ⟨calls, h⟩ := Makes.mapM fun entry (_ : entry ∈ Table.sorted content) =>
    Schema.compileOptional_makes doc.schemas entry.2.schema
      (Schema.Scope.top mode (Text.joinHint hint (Text.mediaTypeSegment entry.1)))
  exact ⟨calls, h.last fun _ => Makes.pure _⟩

theorem schemaOrContentType_makes (schema : Option (RefOr Json)) (content : Table MediaType)
    (hint : String) (mode : Schema.Mode) :
    ∃ calls, (schemaOrContentType doc schema content hint mode).Makes calls := by
  cases schema with
  | some slot => exact Schema.compile_makes doc.schemas slot _
  | none => exact contentType_makes doc content .unknown hint mode

theorem lookupOr_makes (kind : ComponentKind α) (slot : RefOr α) {m : Compilation TypeExpr}
    (hm : ∃ calls, m.Makes calls) : ∃ calls, (lookupOr kind slot m).Makes calls := by
  unfold lookupOr
  split
  · exact ⟨_, Makes.pure _⟩
  · exact hm

theorem responseHeaderField_makes (name : String) (slot : RefOr Header) :
    ∃ calls, (responseHeaderField doc name slot).Makes calls := by
  unfold responseHeaderField
  split
  · rename_i header _
    obtain ⟨calls, h⟩ := lookupOr_makes .header slot
      (schemaOrContentType_makes doc header.schema header.content name .output)
    exact ⟨calls, h.last fun _ => Makes.pure _⟩
  · exact ⟨_, (Makes.note _).last fun _ => Makes.pure _⟩

theorem Response.compile_makes (hint : String) (response : Response) :
    ∃ calls, (response.compile doc hint).Makes calls := by
  unfold Response.compile
  obtain ⟨calls, hbody⟩ := contentType_makes doc response.content .never hint .output
  obtain ⟨more, hheaders⟩ := Makes.mapM fun entry (_ : entry ∈ Table.sorted response.headers) =>
    responseHeaderField_makes doc entry.1 entry.2
  by_cases hnone : response.headers.isEmpty
  · simp only [if_pos hnone]
    exact ⟨calls, hbody.last fun _ => Makes.pure _⟩
  · simp only [if_neg hnone]
    exact ⟨calls ++ more, hbody.bind fun _ => hheaders.last fun _ => Makes.pure _⟩

/-- A type that is stored as its text. -/
theorem stored_succeedsIff {m : Compilation TypeExpr} (hm : ∃ calls, m.Makes calls)
    (store : TypeExpr → α) :
    ∃ calls, SucceedsIff (Build.ofCompilation m >>= fun type => pure (store type)) True calls := by
  obtain ⟨calls, hcalls⟩ := hm
  exact ⟨calls, (SucceedsIff.ofCompilation hcalls).last fun _ => SucceedsIff.pure _⟩

/-! ### Components -/

theorem compileSection_succeedsIff (kind : ComponentKind α) (entries : Table (RefOr α))
    {compile : String → α → Compilation TypeExpr}
    (hcompile : ∀ name value, ∃ calls, (compile name value).Makes calls) :
    ∃ calls, SucceedsIff (compileSection doc kind entries compile)
      (∀ entry ∈ Table.sorted entries, kind.Resolves doc entry.2) calls := by
  refine SucceedsIff.mapM fun entry _ => ?_
  exact SucceedsIff.follow_total (Follows.ofResolved.inside _) fun value =>
    stored_succeedsIff (hcompile entry.1 value) _

theorem compileSchemas_makes (entries : Table (RefOr Json)) :
    ∃ calls, (compileSchemas doc entries).Makes calls := by
  refine Makes.mapM fun entry _ => ?_
  obtain ⟨calls, h⟩ := Schema.compile_makes doc.schemas entry.2 (.top .component entry.1)
  exact ⟨calls, h.last fun _ => Makes.pure _⟩

theorem compileComponents_succeedsIff :
    ∃ calls, SucceedsIff (compileComponents doc)
      (∀ components, doc.components = some components → components.Resolves doc) calls := by
  unfold compileComponents
  cases doc.components with
  | none => exact ⟨_, (SucceedsIff.pure _).congr ⟨fun _ => nofun, fun _ => trivial⟩⟩
  | some components =>
    obtain ⟨_, hschemas⟩ := compileSchemas_makes doc components.schemas
    obtain ⟨_, hresponses⟩ := compileSection_succeedsIff doc .response components.responses
      (Response.compile_makes doc)
    obtain ⟨_, hrequestBodies⟩ := compileSection_succeedsIff doc .requestBody
      components.requestBodies fun hint body =>
        contentType_makes doc body.content .unknown hint .input
    obtain ⟨_, hparameters⟩ := compileSection_succeedsIff doc .parameter components.parameters
      fun hint parameter =>
        schemaOrContentType_makes doc parameter.schema parameter.content hint .input
    obtain ⟨_, hheaders⟩ := compileSection_succeedsIff doc .header components.headers
      fun hint header => schemaOrContentType_makes doc header.schema header.content hint .output
    obtain ⟨_, hsecuritySchemes⟩ := compileSection_succeedsIff doc .securityScheme
      components.securitySchemes fun _ scheme => ⟨_, Makes.pure scheme.type⟩
    refine ⟨_, SucceedsIff.congr (.bind (.ofCompilation hschemas) fun _ =>
      .bind hresponses fun _ => .bind hrequestBodies fun _ => .bind hparameters fun _ =>
      .bind hheaders fun _ => .last hsecuritySchemes fun _ => .pure _) ?_⟩
    constructor
    · rintro ⟨-, hresponses, hrequestBodies, hparameters, hheaders, hsecuritySchemes⟩ _ heq
      cases heq
      exact ⟨hresponses, hrequestBodies, hparameters, hheaders, hsecuritySchemes⟩
    · intro h
      obtain ⟨hresponses, hrequestBodies, hparameters, hheaders, hsecuritySchemes⟩ := h _ rfl
      exact ⟨trivial, hresponses, hrequestBodies, hparameters, hheaders, hsecuritySchemes⟩

/-! ### Operations -/

theorem compileParameters_succeedsIff (slots : List (RefOr Parameter)) :
    ∃ calls, SucceedsIff (compileParameters doc slots)
      (∀ slot ∈ slots, ComponentKind.parameter.Resolves doc slot) calls := by
  unfold compileParameters
  obtain ⟨calls, h⟩ := SucceedsIff.mapM fun slot (_ : slot ∈ slots) =>
    SucceedsIff.follow_total Follows.ofResolved fun parameter : Parameter =>
      stored_succeedsIff (lookupOr_makes .parameter slot (schemaOrContentType_makes doc
        parameter.schema parameter.content parameter.name .input)) fun type =>
        (ParameterKey.mk parameter.name parameter.location,
          ParameterType.mk type.render (parameter.required || parameter.location = "path"))
  exact ⟨calls, h.last fun _ => SucceedsIff.pure _⟩

theorem compileRequestBody_succeedsIff (method : Method) (op : Operation) :
    ∃ calls, SucceedsIff (compileRequestBody doc method op)
      (∀ slot, op.requestBody = some slot → ComponentKind.requestBody.Resolves doc slot)
      calls := by
  unfold compileRequestBody
  cases op.requestBody with
  | none => exact ⟨_, (SucceedsIff.pure _).congr ⟨fun _ => nofun, fun _ => trivial⟩⟩
  | some slot =>
    have hslot : Follows (Build.ofResolved (resolve .requestBody doc slot)) .requestBody doc slot :=
      Follows.ofResolved
    obtain ⟨calls, h⟩ := SucceedsIff.follow_total hslot fun body : RequestBody =>
      stored_succeedsIff (lookupOr_makes .requestBody slot (contentType_makes doc body.content
        .unknown (Text.joinHint method.key "RequestBody") .input)) fun type => some type.render
    refine ⟨calls, h.congr ⟨fun hslot _ heq => ?_, fun hslot => hslot slot rfl⟩⟩
    cases heq
    exact hslot

theorem compileResponses_succeedsIff (method : Method) (op : Operation) :
    ∃ calls, SucceedsIff (compileResponses doc method op)
      (∀ entry ∈ Table.sorted op.responses, ComponentKind.response.Resolves doc entry.2)
      calls := by
  refine SucceedsIff.mapM fun entry _ => ?_
  exact SucceedsIff.follow_total Follows.ofResolved fun response : Response =>
    stored_succeedsIff (lookupOr_makes .response entry.2 (response.compile_makes doc _)) _

theorem noteDropped_makes (parameters : ParameterTable) : (noteDropped parameters).Makes [] := by
  unfold noteDropped
  induction parameters with
  | nil => exact Makes.pure ()
  | cons entry rest ih =>
    refine Makes.last (m := if knownLocations.contains entry.1.location then _ else _) ?_
      fun _ => ih
    split
    · exact Makes.pure ()
    · exact Makes.note _

/-- Which calls an operation makes does not depend on the parameters of its item. -/
theorem compileOperation_succeedsIff (item : PathItem) (method : Method) (op : Operation) :
    ∃ calls, ∀ shared, SucceedsIff (compileOperation doc item shared method op)
      (op.Resolves doc) calls := by
  unfold compileOperation
  obtain ⟨_, hparameters⟩ := compileParameters_succeedsIff doc op.parameters
  obtain ⟨_, hrequestBody⟩ := compileRequestBody_succeedsIff doc method op
  obtain ⟨_, hresponses⟩ := compileResponses_succeedsIff doc method op
  refine ⟨_, fun shared => SucceedsIff.congr (.bind (.inside _ hparameters) fun _ =>
    .bind (.ofCompilation (noteDropped_makes _)) fun _ => .bind (.inside _ hrequestBody) fun _ =>
    .last (.inside _ hresponses) fun _ => .pure _) ?_⟩
  exact ⟨fun ⟨hparameters, _, hrequestBody, hresponses⟩ => ⟨hparameters, hrequestBody, hresponses⟩,
    fun h => ⟨h.parameters, trivial, h.requestBody, h.responses⟩⟩

theorem PathItem.mem_operations {item : PathItem} {method : Method} {op : Operation} :
    (method, op) ∈ item.operations ↔ item.operation? method = some op := by
  have hall : method ∈ Method.compileOrder := by cases method <;> decide
  unfold PathItem.operations
  rw [List.mem_filterMap]
  constructor
  · rintro ⟨other, -, hsome⟩
    obtain ⟨_, hop, heq⟩ := Option.map_eq_some_iff.mp hsome
    cases heq
    exact hop
  · intro hop
    exact ⟨method, hall, by rw [hop]; rfl⟩

theorem compileItem_succeedsIff (item : PathItem) :
    ∃ calls, SucceedsIff (compileItem doc item) (item.Resolves doc) calls := by
  unfold compileItem
  obtain ⟨_, hparameters⟩ := compileParameters_succeedsIff doc item.parameters
  obtain ⟨_, hoperations⟩ := SucceedsIff.mapM_variant
    (g := fun shared (entry : Method × Operation) => do
      return (entry.1, ← compileOperation doc item shared entry.1 entry.2))
    fun entry (_ : entry ∈ item.operations) => by
      obtain ⟨calls, h⟩ := compileOperation_succeedsIff doc item entry.1 entry.2
      exact ⟨calls, fun shared => (h shared).last fun _ => .pure _⟩
  refine ⟨_, (hparameters.bind hoperations).congr ?_⟩
  constructor
  · rintro ⟨hparameters, hoperations⟩
    exact ⟨hparameters, fun method op hop =>
      hoperations (method, op) (PathItem.mem_operations.mpr hop)⟩
  · intro h
    exact ⟨h.parameters, fun entry hentry =>
      h.operations entry.1 entry.2 (PathItem.mem_operations.mp hentry)⟩

theorem compileItems_succeedsIff (label : String) (items : Table (RefOr PathItem)) :
    ∃ calls, SucceedsIff (compileItems doc label items)
      (∀ entry ∈ Table.sorted items, PathItem.SlotResolves doc entry.2) calls := by
  unfold compileItems
  obtain ⟨calls, h⟩ := SucceedsIff.mapM
    (g := fun entry : String × RefOr PathItem => do
      let types ← Build.inside (label ++ " " ++ Text.shown entry.1) do
        compileItem doc (← Build.ofResolved (resolve .pathItem doc entry.2))
      if types.isEmpty then
        Build.note (.itemSkipped label entry.1)
        return none
      else return some (entry.1, types))
    fun entry (_ : entry ∈ Table.sorted items) => by
      have hslot : Follows (Build.ofResolved (resolve .pathItem doc entry.2)) .pathItem doc
        entry.2 := Follows.ofResolved
      obtain ⟨calls, h⟩ := SucceedsIff.follow hslot fun item _ => compileItem_succeedsIff doc item
      refine ⟨calls, (h.inside _).last fun types => ?_⟩
      split
      · exact (SucceedsIff.ofCompilation (Makes.note _)).last fun _ => SucceedsIff.pure none
      · exact SucceedsIff.pure _
  exact ⟨calls, h.last fun _ => SucceedsIff.pure _⟩

/-! ### Documents -/

theorem compileDocument_succeedsIff :
    ∃ calls, SucceedsIff (compileDocument doc) doc.Resolves calls := by
  unfold compileDocument
  obtain ⟨_, hcomponents⟩ := compileComponents_succeedsIff doc
  obtain ⟨_, hpaths⟩ := compileItems_succeedsIff doc "path" doc.paths
  obtain ⟨_, hwebhooks⟩ := compileItems_succeedsIff doc "webhook" doc.webhooks
  refine ⟨_, SucceedsIff.congr
    (.bind hcomponents fun _ => .bind hpaths fun _ => .last hwebhooks fun _ => .pure _) ?_⟩
  exact ⟨fun ⟨hcomponents, hpaths, hwebhooks⟩ => ⟨hcomponents, hpaths, hwebhooks⟩,
    fun h => ⟨h.components, h.paths, h.webhooks⟩⟩

end Compiled

/-- A build succeeds just when every reference that it follows can be resolved: those of the
components, of the items of paths and webhooks, and of the parameters, request bodies and
responses of these items.  It never fails for another reason. -/
theorem build_succeeds_iff (doc : Document) :
    ((∃ decls, build doc = .ok decls) ↔ doc.Resolves) ∧
      ∀ error, build doc = .error error → error.cause.OfReference := by
  obtain ⟨calls, hdoc⟩ := compileDocument_succeedsIff doc
  rw [build_eq]
  by_cases hresolves : doc.Resolves
  · obtain ⟨total, htotal, -⟩ := hdoc.ok hresolves
    rw [htotal]
    exact ⟨⟨fun _ => hresolves, fun _ => ⟨_, rfl⟩⟩, nofun⟩
  · obtain ⟨error, hvalue, hcause⟩ := hdoc.error hresolves Registry.empty
    rw [hvalue]
    refine ⟨⟨nofun, fun h => absurd h hresolves⟩, fun error' herror => ?_⟩
    cases herror
    exact hcause

/-- Schemas, headers of responses and items that nothing refers to do not count. -/
example : (build {
    components := some {
      schemas := [("Pet", .reference "#/components/schemas/Nowhere")]
      responses := [("Found", .inline {
        headers := [("X-Page", .reference "#/components/headers/Nowhere")] })]
      pathItems := [("Unused", .reference "#/components/pathItems/Nowhere")] } }).toBool =
    true := rfl

end OpenApiTypings
