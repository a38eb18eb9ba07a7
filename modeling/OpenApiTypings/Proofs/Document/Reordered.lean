import Mathlib.Data.Option.Basic
import OpenApiTypings.Document.Resolve
import OpenApiTypings.Proofs.Table

/-!
# Documents that differ in the order of their entries

The mappings of a document have no order of their own; a table lists their entries in the
order in which a reader gave them.  Two documents are reordered when they differ in that
order alone, in whatever mappings they have, where no key is repeated.
-/

namespace OpenApiTypings

/-! ### Tables -/

/-- The tables have the same keys, each of them once and in any order, with related values. -/
def Table.Reordered (R : α → α → Prop) (table table' : Table α) : Prop :=
  table.keys.Nodup ∧ ∃ paired : Table α, paired.Perm table' ∧
    List.Forall₂ (fun entry other => entry.1 = other.1 ∧ R entry.2 other.2) table paired

namespace Table.Reordered

variable {R : α → α → Prop} {table table' : Table α}

theorem keys_paired {paired : Table α}
    (h : List.Forall₂ (fun entry other => entry.1 = other.1 ∧ R entry.2 other.2) table paired) :
    paired.keys = table.keys :=
  keys_eq_of_forall₂ (fun _ _ hentry => hentry.1.symm) h

theorem length_eq (h : Reordered R table table') : table.length = table'.length := by
  obtain ⟨-, paired, hperm, hpaired⟩ := h
  rw [hpaired.length_eq, hperm.length_eq]

theorem isEmpty_eq (h : Reordered R table table') : table.isEmpty = table'.isEmpty := by
  obtain ⟨-, paired, hperm, hpaired⟩ := h
  rw [← hperm.isEmpty_eq]
  cases hpaired <;> rfl

/-- In the order of the keys the entries are related in pairs. -/
theorem forall₂_sorted (h : Reordered R table table') :
    List.Forall₂ (fun entry other => entry.1 = other.1 ∧ R entry.2 other.2) (sorted table)
      (sorted table') := by
  obtain ⟨hkeys, paired, hperm, hpaired⟩ := h
  have hkeys' : paired.keys.Nodup := by
    rw [keys_paired hpaired]
    exact hkeys
  rw [← sorted_eq_of_perm hkeys' hperm]
  exact Table.forall₂_sorted (fun _ _ hentry => hentry.1) hpaired

/-- The same entries in another order. -/
theorem of_perm {table table' : Table α} (hkeys : table.keys.Nodup) (h : table.Perm table') :
    Reordered Eq table table' :=
  ⟨hkeys, table, h, List.forall₂_same.mpr fun _ _ => ⟨rfl, rfl⟩⟩

theorem nil : Reordered R ([] : Table α) [] :=
  ⟨List.nodup_nil, [], List.Perm.refl _, List.Forall₂.nil⟩

theorem perm {table table' : Table α} (h : Reordered Eq table table') : table.Perm table' := by
  obtain ⟨-, paired, hperm, hpaired⟩ := h
  have hsame : table = paired := by
    rw [← List.forall₂_eq_eq_eq]
    exact hpaired.imp fun _ _ hentry => Prod.ext hentry.1 hentry.2
  rw [hsame]
  exact hperm

theorem sorted_eq {table table' : Table α} (h : Reordered Eq table table') :
    sorted table = sorted table' :=
  sorted_eq_of_perm h.1 h.perm

/-- A look-up finds related values, or nothing in both tables. -/
theorem get? (h : Reordered R table table') (key : String) :
    Option.Rel R (table.get? key) (table'.get? key) := by
  obtain ⟨hkeys, paired, hperm, hpaired⟩ := h
  have hkeys' : paired.keys.Nodup := by
    rw [keys_paired hpaired]
    exact hkeys
  rw [← get?_eq_of_perm hkeys' hperm]
  clear hkeys hkeys' hperm
  induction hpaired with
  | nil => exact Option.Rel.none
  | @cons entry other _ _ hentry _ ih =>
    obtain ⟨k, v⟩ := entry
    obtain ⟨l, w⟩ := other
    obtain ⟨rfl, hvalue⟩ := hentry
    unfold Table.get? at ih ⊢
    rw [List.lookup_cons, List.lookup_cons]
    cases key == k with
    | true => exact Option.Rel.some hvalue
    | false => exact ih

theorem get?_eq {table table' : Table α} (h : Reordered Eq table table') (key : String) :
    table.get? key = table'.get? key :=
  get?_eq_of_perm h.1 h.perm key

end Table.Reordered

/-! ### Parts of documents -/

/-- Both are the same reference, or both are objects in place, with related values. -/
inductive RefOr.Rel (R : α → α → Prop) : RefOr α → RefOr α → Prop
  | reference (pointer : String) : Rel R (.reference pointer) (.reference pointer)
  | inline {value value' : α} (h : R value value') : Rel R (.inline value) (.inline value')

structure Server.Reordered (server server' : Server) : Prop where
  url : server.url = server'.url
  description : server.description = server'.description
  placeholders : Table.Reordered Eq server.placeholders server'.placeholders

/-- The same schemes with the same scopes. -/
def SecurityRequirement.Reordered (requirement requirement' : SecurityRequirement) : Prop :=
  Table.Reordered Eq requirement requirement'

structure Parameter.Reordered (parameter parameter' : Parameter) : Prop where
  name : parameter.name = parameter'.name
  location : parameter.location = parameter'.location
  required : parameter.required = parameter'.required
  schema : parameter.schema = parameter'.schema
  content : Table.Reordered Eq parameter.content parameter'.content

structure Header.Reordered (header header' : Header) : Prop where
  required : header.required = header'.required
  schema : header.schema = header'.schema
  content : Table.Reordered Eq header.content header'.content

structure RequestBody.Reordered (body body' : RequestBody) : Prop where
  required : body.required = body'.required
  content : Table.Reordered Eq body.content body'.content

structure Response.Reordered (response response' : Response) : Prop where
  description : response.description = response'.description
  headers : Table.Reordered (RefOr.Rel Header.Reordered) response.headers response'.headers
  content : Table.Reordered Eq response.content response'.content

structure Operation.Reordered (op op' : Operation) : Prop where
  operationId : op.operationId = op'.operationId
  parameters : List.Forall₂ (RefOr.Rel Parameter.Reordered) op.parameters op'.parameters
  requestBody : Option.Rel (RefOr.Rel RequestBody.Reordered) op.requestBody op'.requestBody
  responses : Table.Reordered (RefOr.Rel Response.Reordered) op.responses op'.responses
  security : List.Forall₂ SecurityRequirement.Reordered op.security op'.security
  servers : List.Forall₂ Server.Reordered op.servers op'.servers

structure PathItem.Reordered (item item' : PathItem) : Prop where
  operations : ∀ method, Option.Rel Operation.Reordered (item.operation? method)
    (item'.operation? method)
  parameters : List.Forall₂ (RefOr.Rel Parameter.Reordered) item.parameters item'.parameters
  servers : List.Forall₂ Server.Reordered item.servers item'.servers

structure OAuthFlow.Reordered (flow flow' : OAuthFlow) : Prop where
  authorizationUrl : flow.authorizationUrl = flow'.authorizationUrl
  tokenUrl : flow.tokenUrl = flow'.tokenUrl
  refreshUrl : flow.refreshUrl = flow'.refreshUrl
  scopes : Table.Reordered Eq flow.scopes flow'.scopes

structure OAuthFlows.Reordered (flows flows' : OAuthFlows) : Prop where
  implicit : Option.Rel OAuthFlow.Reordered flows.implicit flows'.implicit
  password : Option.Rel OAuthFlow.Reordered flows.password flows'.password
  clientCredentials : Option.Rel OAuthFlow.Reordered flows.clientCredentials
    flows'.clientCredentials
  authorizationCode : Option.Rel OAuthFlow.Reordered flows.authorizationCode
    flows'.authorizationCode

/-- The schemes are the same but for the order of scopes. -/
structure SecurityScheme.Reordered (scheme scheme' : SecurityScheme) : Prop where
  flows : Option.Rel OAuthFlows.Reordered scheme.flows scheme'.flows
  others : { scheme with flows := none } = { scheme' with flows := none }

structure Components.Reordered (components components' : Components) : Prop where
  schemas : Table.Reordered Eq components.schemas components'.schemas
  responses : Table.Reordered (RefOr.Rel Response.Reordered) components.responses
    components'.responses
  requestBodies : Table.Reordered (RefOr.Rel RequestBody.Reordered) components.requestBodies
    components'.requestBodies
  parameters : Table.Reordered (RefOr.Rel Parameter.Reordered) components.parameters
    components'.parameters
  headers : Table.Reordered (RefOr.Rel Header.Reordered) components.headers components'.headers
  securitySchemes : Table.Reordered (RefOr.Rel SecurityScheme.Reordered)
    components.securitySchemes components'.securitySchemes
  pathItems : Table.Reordered (RefOr.Rel PathItem.Reordered) components.pathItems
    components'.pathItems

/-- The documents are the same but for the order in which their mappings list the entries. -/
structure Document.Reordered (doc doc' : Document) : Prop where
  openapi : doc.openapi = doc'.openapi
  info : doc.info = doc'.info
  paths : Table.Reordered (RefOr.Rel PathItem.Reordered) doc.paths doc'.paths
  webhooks : Table.Reordered (RefOr.Rel PathItem.Reordered) doc.webhooks doc'.webhooks
  components : Option.Rel Components.Reordered doc.components doc'.components
  servers : List.Forall₂ Server.Reordered doc.servers doc'.servers
  security : List.Forall₂ SecurityRequirement.Reordered doc.security doc'.security

/-! ### References -/

/-- Both fail alike, or both give related values. -/
inductive ExceptRel (R : α → β → Prop) : Except ε α → Except ε β → Prop
  | ok {a : α} {b : β} (h : R a b) : ExceptRel R (.ok a) (.ok b)
  | error (e : ε) : ExceptRel R (.error e) (.error e)

/-- Reordered components have related entries of the kind. -/
def ComponentKind.Respects (kind : ComponentKind α) (R : α → α → Prop) : Prop :=
  ∀ components components', Components.Reordered components components' →
    Table.Reordered (RefOr.Rel R) (kind.entries components) (kind.entries components')

namespace ComponentKind

theorem response_respects : response.Respects Response.Reordered := fun _ _ h => h.responses

theorem requestBody_respects : requestBody.Respects RequestBody.Reordered :=
  fun _ _ h => h.requestBodies

theorem parameter_respects : parameter.Respects Parameter.Reordered := fun _ _ h => h.parameters

theorem header_respects : header.Respects Header.Reordered := fun _ _ h => h.headers

theorem securityScheme_respects : securityScheme.Respects SecurityScheme.Reordered :=
  fun _ _ h => h.securitySchemes

theorem pathItem_respects : pathItem.Respects PathItem.Reordered := fun _ _ h => h.pathItems

end ComponentKind

namespace Document.Reordered

variable {doc doc' : Document} (h : doc.Reordered doc')
include h

theorem schemas_reordered : Table.Reordered Eq doc.schemas doc'.schemas := by
  have hcomponents := h.components
  unfold Document.schemas
  generalize doc.components = components at hcomponents ⊢
  generalize doc'.components = components' at hcomponents ⊢
  cases hcomponents with
  | some hsome => exact hsome.schemas
  | none => exact Table.Reordered.nil

/-- References lead to related values, or fail alike. -/
theorem resolve {kind : ComponentKind α} {R : α → α → Prop} (hkind : kind.Respects R)
    {slot slot' : RefOr α} (hslot : RefOr.Rel R slot slot') :
    ExceptRel R (resolve kind doc slot) (resolve kind doc' slot') := by
  cases hslot with
  | inline hvalue => exact ExceptRel.ok hvalue
  | reference pointer =>
    have hcomponents := h.components
    unfold OpenApiTypings.resolve
    generalize doc.components = components at hcomponents ⊢
    generalize doc'.components = components' at hcomponents ⊢
    simp only
    cases hcomponents with
    | none => cases kind.sec.nameIn? pointer <;> exact ExceptRel.error _
    | @some components components' hsome =>
      cases kind.sec.nameIn? pointer with
      | none => exact ExceptRel.error _
      | some name =>
        have hfound := (hkind _ _ hsome).get? name
        simp only
        generalize (kind.entries components).get? name = found at hfound ⊢
        generalize (kind.entries components').get? name = found' at hfound ⊢
        cases hfound with
        | none => exact ExceptRel.error _
        | some hentry =>
          cases hentry with
          | reference nested => exact ExceptRel.error _
          | inline hvalue => exact ExceptRel.ok hvalue

end Document.Reordered

theorem lookup?_eq_of_rel {kind : ComponentKind α} {R : α → α → Prop} {slot slot' : RefOr α}
    (hslot : RefOr.Rel R slot slot') : lookup? kind slot = lookup? kind slot' := by
  cases hslot <;> rfl

end OpenApiTypings
