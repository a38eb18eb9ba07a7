import OpenApiTypings.Proofs.Declarations.References
import OpenApiTypings.Proofs.Lists

/-!
# The places that failures name

A failure carries the places around its cause, from the outermost to the innermost: the entry
of the components, or the path or the webhook with the part of the operation.  They are added
on the way out, one by each function of the builder that is left, so the places of a failure
are those of one slot, and following this slot is what failed.

Parameters of an item stand at the item itself; a component is named in one place altogether.
-/

namespace OpenApiTypings

/-! ### Places -/

/-- The tables of items: paths and webhooks. -/
inductive ItemTable where
  | paths
  | webhooks
  deriving DecidableEq, Repr

namespace ItemTable

/-- What an item of the table is called. -/
def label : ItemTable → String
  | .paths => "path"
  | .webhooks => "webhook"

/-- The entries of the table. -/
def items : ItemTable → Document → Table (RefOr PathItem)
  | .paths, doc => doc.paths
  | .webhooks, doc => doc.webhooks

/-- The place of an item. -/
def place (table : ItemTable) (key : String) : String :=
  table.label ++ " " ++ Text.shown key

end ItemTable

namespace Document

variable {doc : Document}

/-- The entry of the table leads to the item. -/
def Leads (doc : Document) (table : ItemTable) (key : String) (item : PathItem) : Prop :=
  ∃ held, (key, held) ∈ Table.sorted (table.items doc) ∧ resolve .pathItem doc held = .ok item

/-- The slot stands at these places, outermost first. -/
inductive HoldsAt (doc : Document) : List String → Slot → Prop
  | component {components : Components} (hcomponents : doc.components = some components)
      {α : Type} {kind : ComponentKind α} {compile} (hkind : kind.CompiledBy doc compile)
      {name : String} {held : RefOr α}
      (hentry : (name, held) ∈ Table.sorted (kind.entries components)) :
      HoldsAt doc ["components." ++ kind.sec.key ++ "." ++ name] ⟨kind, held⟩
  | item {table : ItemTable} {key : String} {held : RefOr PathItem}
      (hentry : (key, held) ∈ Table.sorted (table.items doc)) :
      HoldsAt doc [table.place key] ⟨.pathItem, held⟩
  | itemParameter {table : ItemTable} {key : String} {item : PathItem}
      (hleads : doc.Leads table key item) {held : RefOr Parameter}
      (hheld : held ∈ item.parameters) :
      HoldsAt doc [table.place key] ⟨.parameter, held⟩
  | parameter {table : ItemTable} {key : String} {item : PathItem}
      (hleads : doc.Leads table key item) {method : Method} {op : Operation}
      (hop : item.operation? method = some op) {held : RefOr Parameter}
      (hheld : held ∈ op.parameters) :
      HoldsAt doc [table.place key, method.key ++ " params"] ⟨.parameter, held⟩
  | requestBody {table : ItemTable} {key : String} {item : PathItem}
      (hleads : doc.Leads table key item) {method : Method} {op : Operation}
      (hop : item.operation? method = some op) {held : RefOr RequestBody}
      (hheld : op.requestBody = some held) :
      HoldsAt doc [table.place key, method.key ++ " requestBody"] ⟨.requestBody, held⟩
  | response {table : ItemTable} {key : String} {item : PathItem}
      (hleads : doc.Leads table key item) {method : Method} {op : Operation}
      (hop : item.operation? method = some op) {code : String} {held : RefOr Response}
      (hentry : (code, held) ∈ Table.sorted op.responses) :
      HoldsAt doc [table.place key, method.key ++ " responses"] ⟨.response, held⟩

theorem Leads.hasItem {table : ItemTable} {key : String} {item : PathItem}
    (h : doc.Leads table key item) : doc.HasItem item := by
  obtain ⟨held, hentry, hresolve⟩ := h
  cases table with
  | paths => exact ⟨_, .inl hentry, hresolve⟩
  | webhooks => exact ⟨_, .inr hentry, hresolve⟩

theorem HoldsAt.follows {contexts : List String} {slot : Slot} (h : doc.HoldsAt contexts slot) :
    doc.Follows slot := by
  cases h with
  | component hcomponents hkind hentry => exact .component hcomponents hkind hentry
  | @item table _ _ hentry =>
    cases table with
    | paths => exact .path hentry
    | webhooks => exact .webhook hentry
  | itemParameter hleads hheld => exact .itemParameter hleads.hasItem hheld
  | parameter hleads hop hheld => exact .parameter hleads.hasItem hop hheld
  | requestBody hleads hop hheld => exact .requestBody hleads.hasItem hop hheld
  | response hleads hop hentry => exact .response hleads.hasItem hop hentry

end Document

/-! ### Failures of steps -/

namespace Build

/-- The step fails only for a slot that leads to no object, and names the places of the slot. -/
def FailsAt (m : Build α) (doc : Document) (holds : List String → Slot → Prop) : Prop :=
  ∀ registry error, (Compilation.run m.run registry).value = .error error →
    ∃ slot, holds error.contexts slot ∧ slot.FailsFor doc error.cause

namespace FailsAt

variable {m : Build α} {f : α → Build β} {doc : Document} {holds : List String → Slot → Prop}

theorem ofCompilation (total : Compilation α) : (ofCompilation total).FailsAt doc holds := by
  intro registry error h
  cases h

theorem pure (a : α) : (Pure.pure a : Build α).FailsAt doc holds :=
  ofCompilation (Pure.pure a)

theorem bind (hm : m.FailsAt doc holds) (hf : ∀ a, (f a).FailsAt doc holds) :
    (m >>= f).FailsAt doc holds := by
  intro registry error h
  rw [ExceptT.run_bind, Compilation.run_bind] at h
  cases hvalue : (Compilation.run m.run registry).value with
  | ok a =>
    rw [hvalue] at h
    exact hf a _ error h
  | error e =>
    rw [hvalue] at h
    cases h
    exact hm registry error hvalue

/-- A failure inside a place names this place before its own. -/
theorem inside {context : String} (hm : m.FailsAt doc fun contexts => holds (context :: contexts)) :
    (inside context m).FailsAt doc holds := by
  intro registry error h
  change Except.mapError _ (Compilation.run m.run registry).value = _ at h
  cases hvalue : (Compilation.run m.run registry).value with
  | ok a =>
    rw [hvalue] at h
    cases h
  | error e =>
    rw [hvalue] at h
    cases h
    exact hm registry e hvalue

theorem mapM {g : α → Build β} {xs : List α} (hg : ∀ x ∈ xs, (g x).FailsAt doc holds) :
    (xs.mapM g).FailsAt doc holds :=
  mapM_of_bind (P := (FailsAt · doc holds)) pure bind hg

/-- Following a slot fails where the slot stands, with no further place. -/
theorem follow {kind : ComponentKind α} {held : RefOr α} (hslot : holds [] ⟨kind, held⟩)
    (hf : ∀ value, resolve kind doc held = .ok value → (f value).FailsAt doc holds) :
    (Build.ofResolved (resolve kind doc held) >>= f).FailsAt doc holds := by
  cases hresolve : resolve kind doc held with
  | ok value => exact hf value hresolve
  | error cause =>
    intro registry error h
    cases h
    exact ⟨⟨kind, held⟩, hslot, hresolve⟩

theorem ofResolved {kind : ComponentKind α} {held : RefOr α} (hslot : holds [] ⟨kind, held⟩) :
    (Build.ofResolved (resolve kind doc held)).FailsAt doc holds := by
  rw [← bind_pure (Build.ofResolved _)]
  exact follow hslot fun value _ => .pure value

end FailsAt

end Build

/-! ### Failures of a build -/

section Compiled

open Build (FailsAt)

variable {doc : Document}

theorem compileSection_failsAt {components : Components}
    (hcomponents : doc.components = some components) {kind : ComponentKind α}
    {compile : String → α → Compilation TypeExpr} (hkind : kind.CompiledBy doc compile) :
    (compileSection doc kind (kind.entries components) compile).FailsAt doc doc.HoldsAt := by
  refine FailsAt.mapM ?_
  rintro ⟨name, held⟩ hentry
  -- the place is named around the look-up alone; what follows it cannot fail
  refine .bind (.inside (.ofResolved ?_)) fun value => .bind (.ofCompilation _) fun _ => .pure _
  exact .component hcomponents hkind hentry

theorem compileComponents_failsAt (doc : Document) :
    (compileComponents doc).FailsAt doc doc.HoldsAt := by
  unfold compileComponents
  cases hcomponents : doc.components with
  | none => exact FailsAt.pure _
  | some components =>
    refine FailsAt.bind (.ofCompilation _) fun _ => ?_
    refine .bind (compileSection_failsAt hcomponents .response) fun _ => ?_
    refine .bind (compileSection_failsAt hcomponents .requestBody) fun _ => ?_
    refine .bind (compileSection_failsAt hcomponents .parameter) fun _ => ?_
    refine .bind (compileSection_failsAt hcomponents .header) fun _ => ?_
    exact .bind (compileSection_failsAt hcomponents .securityScheme) fun _ => .pure _

theorem compileParameters_failsAt {slots : List (RefOr Parameter)}
    {holds : List String → Slot → Prop} (hslots : ∀ held ∈ slots, holds [] ⟨.parameter, held⟩) :
    (compileParameters doc slots).FailsAt doc holds := by
  unfold compileParameters
  refine FailsAt.bind (.mapM fun held hheld => ?_) fun _ => .pure _
  exact .follow (hslots held hheld) fun parameter _ => .bind (.ofCompilation _) fun _ => .pure _

section Item

variable {table : ItemTable} {key : String} {item : PathItem}

theorem compileOperation_failsAt (hleads : doc.Leads table key item) (shared : ParameterTable)
    {method : Method} {op : Operation} (hop : item.operation? method = some op) :
    (compileOperation doc item shared method op).FailsAt doc
      fun contexts => doc.HoldsAt (table.place key :: contexts) := by
  have hparameters : (Build.inside (method.key ++ " params")
      (compileParameters doc op.parameters)).FailsAt doc
        fun contexts => doc.HoldsAt (table.place key :: contexts) :=
    .inside (compileParameters_failsAt fun held hheld => .parameter hleads hop hheld)
  have hrequestBody : (Build.inside (method.key ++ " requestBody")
      (compileRequestBody doc method op)).FailsAt doc
        fun contexts => doc.HoldsAt (table.place key :: contexts) := by
    refine .inside ?_
    unfold compileRequestBody
    split
    · exact .pure none
    · rename_i held hheld
      exact .follow (.requestBody hleads hop hheld) fun body _ =>
        .bind (.ofCompilation _) fun _ => .pure _
  have hresponses : (Build.inside (method.key ++ " responses")
      (compileResponses doc method op)).FailsAt doc
        fun contexts => doc.HoldsAt (table.place key :: contexts) := by
    refine .inside (FailsAt.mapM ?_)
    rintro ⟨code, held⟩ hentry
    exact .follow (.response hleads hop hentry) fun response _ =>
      .bind (.ofCompilation _) fun _ => .pure _
  unfold compileOperation
  refine FailsAt.bind hparameters fun own => .bind (.ofCompilation _) fun _ => ?_
  exact .bind hrequestBody fun _ => .bind hresponses fun _ => .pure _

theorem compileItem_failsAt (hleads : doc.Leads table key item) :
    (compileItem doc item).FailsAt doc
      fun contexts => doc.HoldsAt (table.place key :: contexts) := by
  unfold compileItem
  refine FailsAt.bind ?_ fun shared => .mapM ?_
  · exact compileParameters_failsAt fun held hheld => .itemParameter hleads hheld
  · rintro ⟨method, op⟩ hop
    refine .bind ?_ fun _ => .pure _
    exact compileOperation_failsAt hleads shared (PathItem.mem_operations.mp hop)

end Item

theorem compileItems_failsAt (doc : Document) (table : ItemTable) :
    (compileItems doc table.label (table.items doc)).FailsAt doc doc.HoldsAt := by
  unfold compileItems
  refine FailsAt.bind (.mapM ?_) fun _ => .pure _
  rintro ⟨key, held⟩ hentry
  refine .bind (.inside ?_) fun types => ?_
  -- the slot of the item and the parameters of the item stand at the same place, the key
  · exact .follow (.item hentry) fun item hitem => compileItem_failsAt ⟨held, hentry, hitem⟩
  · split
    · exact .bind (.ofCompilation _) fun _ => .pure _
    · exact .pure _

theorem compileDocument_failsAt (doc : Document) :
    (compileDocument doc).FailsAt doc doc.HoldsAt := by
  unfold compileDocument
  refine FailsAt.bind (compileComponents_failsAt doc) fun components => ?_
  refine .bind (compileItems_failsAt doc .paths) fun paths => ?_
  exact .bind (compileItems_failsAt doc .webhooks) fun webhooks => .pure _

end Compiled

/-- A build that fails does so for a slot at the places that the failure names. -/
theorem exists_holdsAt_of_build {doc : Document} {error : CompileError}
    (h : build doc = .error error) :
    ∃ slot, doc.HoldsAt error.contexts slot ∧ slot.FailsFor doc error.cause := by
  rw [build_eq] at h
  cases hvalue : (Compilation.run (compileDocument doc).run Registry.empty).value with
  | ok decls =>
    rw [hvalue] at h
    cases h
  | error e =>
    rw [hvalue] at h
    cases h
    exact compileDocument_failsAt doc Registry.empty error hvalue

/-- A slot that is followed leads to no object, for this reason. -/
def Document.Blames (doc : Document) (cause : CompileCause) : Prop :=
  ∃ slot, doc.Follows slot ∧ slot.FailsFor doc cause

/-- A build that fails does so for a slot that it follows. -/
theorem blames_of_build {doc : Document} {error : CompileError} (h : build doc = .error error) :
    doc.Blames error.cause := by
  obtain ⟨slot, hholds, hcause⟩ := exists_holdsAt_of_build h
  exact ⟨slot, hholds.follows, hcause⟩

/-! ### The text of a failure -/

namespace CompileError

theorem message_within (error : CompileError) (context : String) :
    (error.within context).message = context ++ ": " ++ error.message := by
  unfold message within
  cases hcontexts : error.contexts with
  | nil => rfl
  | cons outer rest => exact String.intercalate_cons_cons

/-- The text names the places from the outermost on, and the cause behind them. -/
theorem message_eq_foldr (error : CompileError) :
    error.message =
      error.contexts.foldr (fun context text => context ++ ": " ++ text) error.cause.message := by
  obtain ⟨contexts, cause⟩ := error
  induction contexts with
  | nil => exact String.intercalate_singleton
  | cons context rest ih => rw [List.foldr_cons, ← ih, ← message_within]; rfl

end CompileError

/-! ### Main result -/

theorem exists_reference_of_resolve {kind : ComponentKind α} {doc : Document} {held : RefOr α}
    {cause : CompileCause} (h : resolve kind doc held = .error cause) :
    ∃ pointer, held = .reference pointer := by
  cases held with
  | reference pointer => exact ⟨pointer, rfl⟩
  | inline value => cases h

/-- The places that a failure names hold a reference that leads to no object, and the cause is
what resolving this reference gives.  The text of the failure is the places and the text of the
cause, each behind a colon. -/
theorem build_error_located {doc : Document} {error : CompileError}
    (h : build doc = .error error) :
    error.cause.OfReference ∧
      (∃ (α : Type) (kind : ComponentKind α) (pointer : String),
        doc.HoldsAt error.contexts ⟨kind, .reference pointer⟩ ∧
          resolve kind doc (.reference pointer) = .error error.cause) ∧
      error.message =
        error.contexts.foldr (fun context text => context ++ ": " ++ text)
          error.cause.message := by
  obtain ⟨⟨kind, held⟩, hholds, hcause⟩ := exists_holdsAt_of_build h
  have hresolve : resolve kind doc held = .error error.cause := hcause
  obtain ⟨pointer, rfl⟩ := exists_reference_of_resolve hresolve
  exact ⟨resolve_error hresolve, ⟨_, kind, pointer, hholds, hresolve⟩, error.message_eq_foldr⟩

/-- A document with an operation whose response is referred to through another one. -/
def nestedDocument : Document where
  paths := [("/a", .inline {
    get := some { responses := [("200", .reference "#/components/responses/Alias")] } })]
  components := some {
    responses := [("Alias", .reference "#/components/responses/Ok"), ("Ok", .inline {})] }

/-- The failure of the document. -/
def nestedFailure : CompileError where
  contexts := [ItemTable.paths.place "/a", Method.get.key ++ " responses"]
  cause := .nestedReference .responses "#/components/responses/Ok"

theorem build_error_located_nested :
    build nestedDocument = .error nestedFailure ∧
      (∃ (α : Type) (kind : ComponentKind α) (pointer : String),
        nestedDocument.HoldsAt nestedFailure.contexts ⟨kind, .reference pointer⟩ ∧
          resolve kind nestedDocument (.reference pointer) = .error nestedFailure.cause) ∧
      nestedFailure.message =
        "path \"/a\": get responses: nested responses $ref \"#/components/responses/Ok\"" := by
  have hbuild : build nestedDocument = .error nestedFailure := rfl
  obtain ⟨-, hplace, hmessage⟩ := build_error_located hbuild
  refine ⟨hbuild, hplace, ?_⟩
  rw [hmessage]
  decide +kernel

end OpenApiTypings
