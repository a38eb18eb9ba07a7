import OpenApiTypings.Declarations.Build
import OpenApiTypings.Declarations.Render
import OpenApiTypings.Proofs.Document.Reordered
import OpenApiTypings.Proofs.Schema.Layers
import OpenApiTypings.Proofs.Type.Union

/-!
# The order of entries does not matter

Every mapping of a document is walked in the order of its keys, or only looked into, or its
entries are sorted afterwards.  So documents that differ in the order of their entries alone
are compiled by the same steps: the types are the same, the enums take the same names, and
the first reference that fails is the same.  What is stored for them differs in the servers
and security requirements, which are stored as they are; their texts are the same again.
-/

namespace OpenApiTypings

/-! ### Servers and security -/

theorem Server.Reordered.type_eq {server server' : Server} (h : server.Reordered server') :
    server.type = server'.type := by
  unfold Server.type
  rw [h.url, h.description, h.placeholders.isEmpty_eq, h.placeholders.sorted_eq]

theorem Server.listType_eq {servers servers' : List Server}
    (h : List.Forall₂ Server.Reordered servers servers') :
    Server.listType servers = Server.listType servers' := by
  unfold Server.listType
  rw [map_eq_of_forall₂ h fun _ _ hserver => hserver.type_eq]

theorem SecurityRequirement.Reordered.type_eq {requirement requirement' : SecurityRequirement}
    (h : requirement.Reordered requirement') :
    SecurityRequirement.type requirement = SecurityRequirement.type requirement' := by
  have hsorted : Table.sorted requirement = Table.sorted requirement' := Table.Reordered.sorted_eq h
  unfold SecurityRequirement.type
  rw [hsorted]

theorem SecurityRequirement.listType_eq {requirements requirements' : List SecurityRequirement}
    (h : List.Forall₂ SecurityRequirement.Reordered requirements requirements') :
    SecurityRequirement.listType requirements = SecurityRequirement.listType requirements' := by
  unfold SecurityRequirement.listType
  rw [map_eq_of_forall₂ h fun _ _ hrequirement => hrequirement.type_eq]

/-- Scopes are listed as they come, but the fields that they make are sorted. -/
theorem OAuthFlow.Reordered.type_eq {flow flow' : OAuthFlow} (h : flow.Reordered flow') :
    flow.type = flow'.type := by
  have hscopes : TypeExpr.objectOf (flow.scopes.map fun entry => Field.required entry.1 .string) =
      TypeExpr.objectOf (flow'.scopes.map fun entry => Field.required entry.1 .string) := by
    apply congrArg TypeExpr.object
    apply Field.sortByName_eq_of_perm
    · rw [List.map_map]
      exact h.scopes.1
    · exact h.scopes.perm.map _
  unfold OAuthFlow.type
  rw [h.authorizationUrl, h.tokenUrl, h.refreshUrl, h.scopes.isEmpty_eq, hscopes]

theorem optionMap_eq_of_rel {R : α → β → Prop} {a? : Option α} {b? : Option β}
    (h : Option.Rel R a? b?) {f : α → γ} {g : β → γ} (hfg : ∀ a b, R a b → f a = g b) :
    a?.map f = b?.map g := by
  cases h with
  | some hab => exact congrArg some (hfg _ _ hab)
  | none => rfl

theorem isSome_eq_of_rel {R : α → β → Prop} {a? : Option α} {b? : Option β}
    (h : Option.Rel R a? b?) : a?.isSome = b?.isSome := by
  cases h <;> rfl

theorem OAuthFlows.type_eq {flows flows' : Option OAuthFlows}
    (h : Option.Rel OAuthFlows.Reordered flows flows') :
    OAuthFlows.type flows = OAuthFlows.type flows' := by
  cases h with
  | none => rfl
  | some hflows =>
    have hflow : ∀ (name : String) (flow flow' : OAuthFlow), flow.Reordered flow' →
        Field.required name flow.type = Field.required name flow'.type :=
      fun name _ _ hflow => congrArg (Field.required name) hflow.type_eq
    simp only [OAuthFlows.type, List.filterMap_cons, List.filterMap_nil]
    rw [optionMap_eq_of_rel hflows.implicit (hflow _),
      optionMap_eq_of_rel hflows.password (hflow _),
      optionMap_eq_of_rel hflows.clientCredentials (hflow _),
      optionMap_eq_of_rel hflows.authorizationCode (hflow _)]

theorem SecurityScheme.Reordered.type_eq {scheme scheme' : SecurityScheme}
    (h : scheme.Reordered scheme') : scheme.type = scheme'.type := by
  obtain ⟨hflows, hothers⟩ := h
  have htype := OAuthFlows.type_eq hflows
  have hgiven := isSome_eq_of_rel hflows
  cases scheme
  cases scheme'
  simp only [SecurityScheme.mk.injEq] at hothers
  obtain ⟨rfl, rfl, rfl, rfl, rfl, rfl, rfl, -⟩ := hothers
  simp only at htype hgiven
  simp only [SecurityScheme.type, SecurityScheme.fields, htype, hgiven]

/-! ### Steps that follow references -/

/-- References that lead to related values are followed alike. -/
theorem Build.ofResolved_bind_congr {R : α → α → Prop} {result result' : Except CompileCause α}
    (hresult : ExceptRel R result result') {f f' : α → Build β} (hf : ∀ a b, R a b → f a = f' b) :
    (Build.ofResolved result >>= f) = (Build.ofResolved result' >>= f') := by
  cases hresult with
  | @ok a b hab =>
    show (pure a >>= f) = (pure b >>= f')
    rw [pure_bind, pure_bind, hf a b hab]
  | error cause => rfl

theorem Build.inside_bind_congr (context : String) {R : α → α → Prop}
    {result result' : Except CompileCause α} (hresult : ExceptRel R result result')
    {f f' : α → Build β} (hf : ∀ a b, R a b → f a = f' b) :
    (Build.inside context (Build.ofResolved result) >>= f) =
      (Build.inside context (Build.ofResolved result') >>= f') := by
  cases hresult with
  | @ok a b hab =>
    show (pure a >>= f) = (pure b >>= f')
    rw [pure_bind, pure_bind, hf a b hab]
  | error cause => rfl

/-! ### Types of a document -/

namespace Document.Reordered

variable {doc doc' : Document} (h : doc.Reordered doc')
include h

theorem compileSchema : Schema.compile doc.schemas = Schema.compile doc'.schemas :=
  Schema.compile_congr h.schemas_reordered.get?_eq

theorem compileOptional (schema : Option (RefOr Json)) (scope : Schema.Scope) :
    Schema.compileOptional doc.schemas schema scope =
      Schema.compileOptional doc'.schemas schema scope := by
  unfold Schema.compileOptional
  rw [h.compileSchema]

theorem contentType {content content' : Table MediaType}
    (hcontent : Table.Reordered Eq content content') (empty : TypeExpr) (hint : String)
    (mode : Schema.Mode) :
    contentType doc content empty hint mode = contentType doc' content' empty hint mode := by
  unfold OpenApiTypings.contentType
  rw [hcontent.isEmpty_eq, hcontent.sorted_eq]
  simp only [h.compileOptional]

theorem schemaOrContentType (schema : Option (RefOr Json)) {content content' : Table MediaType}
    (hcontent : Table.Reordered Eq content content') (hint : String) (mode : Schema.Mode) :
    schemaOrContentType doc schema content hint mode =
      schemaOrContentType doc' schema content' hint mode := by
  unfold OpenApiTypings.schemaOrContentType
  rw [h.compileSchema, h.contentType hcontent]

theorem parameter (hint : String) {parameter parameter' : Parameter}
    (hparameter : parameter.Reordered parameter') :
    parameter.compile doc hint = parameter'.compile doc' hint := by
  unfold Parameter.compile
  rw [hparameter.schema, h.schemaOrContentType _ hparameter.content]

theorem header (hint : String) {header header' : Header} (hheader : header.Reordered header') :
    header.compile doc hint = header'.compile doc' hint := by
  unfold Header.compile
  rw [hheader.schema, h.schemaOrContentType _ hheader.content]

theorem requestBody (hint : String) {body body' : RequestBody} (hbody : body.Reordered body') :
    body.compile doc hint = body'.compile doc' hint :=
  h.contentType hbody.content _ _ _

omit h in
theorem lookupOr {kind : ComponentKind α} {R : α → α → Prop} {slot slot' : RefOr α}
    (hslot : RefOr.Rel R slot slot') {m m' : Compilation TypeExpr} (hm : m = m') :
    lookupOr kind slot m = lookupOr kind slot' m' := by
  unfold OpenApiTypings.lookupOr
  rw [lookup?_eq_of_rel hslot, hm]

theorem responseHeaderField (name : String) {slot slot' : RefOr Header}
    (hslot : RefOr.Rel Header.Reordered slot slot') :
    responseHeaderField doc name slot = responseHeaderField doc' name slot' := by
  have hresolve := h.resolve ComponentKind.header_respects hslot
  unfold OpenApiTypings.responseHeaderField
  generalize OpenApiTypings.resolve .header doc slot = resolved at hresolve ⊢
  generalize OpenApiTypings.resolve .header doc' slot' = resolved' at hresolve ⊢
  cases hresolve with
  | ok hheader =>
    simp only
    rw [lookupOr hslot (h.header name hheader), hheader.required]
  | error cause => rfl

theorem response (hint : String) {response response' : Response}
    (hresponse : response.Reordered response') :
    response.compile doc hint = response'.compile doc' hint := by
  have hheaders := mapM_eq_of_forall₂ hresponse.headers.forall₂_sorted
    (f := fun entry => OpenApiTypings.responseHeaderField doc entry.1 entry.2)
    (g := fun entry => OpenApiTypings.responseHeaderField doc' entry.1 entry.2)
    fun entry other hentry => by rw [hentry.1, h.responseHeaderField _ hentry.2]
  unfold Response.compile
  rw [h.contentType hresponse.content, hresponse.headers.isEmpty_eq, hheaders]

/-! ### Components and operations -/

theorem compileSection {kind : ComponentKind α} {R : α → α → Prop} (hkind : kind.Respects R)
    {entries entries' : Table (RefOr α)} (hentries : Table.Reordered (RefOr.Rel R) entries entries')
    {compile compile' : String → α → Compilation TypeExpr}
    (hcompile : ∀ name value value', R value value' → compile name value = compile' name value') :
    compileSection doc kind entries compile = compileSection doc' kind entries' compile' := by
  refine mapM_eq_of_forall₂ hentries.forall₂_sorted fun entry other hentry => ?_
  obtain ⟨name, slot⟩ := entry
  obtain ⟨name', slot'⟩ := other
  obtain ⟨rfl, hslot⟩ := hentry
  refine Build.inside_bind_congr _ (h.resolve hkind hslot) fun value value' hvalue => ?_
  simp only [hcompile _ _ _ hvalue]

theorem compileSchemas {entries entries' : Table (RefOr Json)}
    (hentries : Table.Reordered Eq entries entries') :
    compileSchemas doc entries = compileSchemas doc' entries' := by
  unfold OpenApiTypings.compileSchemas
  rw [hentries.sorted_eq, h.compileSchema]

theorem compileComponents : compileComponents doc = compileComponents doc' := by
  have hcomponents := h.components
  unfold OpenApiTypings.compileComponents
  generalize doc.components = components at hcomponents ⊢
  generalize doc'.components = components' at hcomponents ⊢
  cases hcomponents with
  | none => rfl
  | some hsome =>
    simp only
    rw [h.compileSchemas hsome.schemas,
      h.compileSection ComponentKind.response_respects hsome.responses fun hint _ _ =>
        h.response hint,
      h.compileSection ComponentKind.requestBody_respects hsome.requestBodies fun hint _ _ =>
        h.requestBody hint,
      h.compileSection ComponentKind.parameter_respects hsome.parameters fun hint _ _ =>
        h.parameter hint,
      h.compileSection ComponentKind.header_respects hsome.headers fun hint _ _ => h.header hint,
      h.compileSection ComponentKind.securityScheme_respects hsome.securitySchemes
        fun _ _ _ hscheme => congrArg pure hscheme.type_eq]

theorem compileParameters {slots slots' : List (RefOr Parameter)}
    (hslots : List.Forall₂ (RefOr.Rel Parameter.Reordered) slots slots') :
    compileParameters doc slots = compileParameters doc' slots' := by
  unfold OpenApiTypings.compileParameters
  rw [mapM_eq_of_forall₂ hslots fun slot slot' hslot => ?_]
  have hresolved := h.resolve ComponentKind.parameter_respects hslot
  refine Build.ofResolved_bind_congr hresolved fun parameter parameter' hp => ?_
  rw [lookupOr hslot (h.parameter parameter.name hp), hp.name, hp.location, hp.required]

theorem compileRequestBody (method : Method) {op op' : Operation} (hop : op.Reordered op') :
    compileRequestBody doc method op = compileRequestBody doc' method op' := by
  have hbody := hop.requestBody
  unfold OpenApiTypings.compileRequestBody
  generalize op.requestBody = slot? at hbody ⊢
  generalize op'.requestBody = slot?' at hbody ⊢
  cases hbody with
  | none => rfl
  | some hslot =>
    have hresolved := h.resolve ComponentKind.requestBody_respects hslot
    refine Build.ofResolved_bind_congr hresolved fun body body' hbody => ?_
    rw [lookupOr hslot (h.requestBody _ hbody)]

theorem compileResponses (method : Method) {op op' : Operation} (hop : op.Reordered op') :
    compileResponses doc method op = compileResponses doc' method op' := by
  refine mapM_eq_of_forall₂ hop.responses.forall₂_sorted fun entry other hentry => ?_
  obtain ⟨code, slot⟩ := entry
  obtain ⟨code', slot'⟩ := other
  obtain ⟨rfl, hslot⟩ := hentry
  have hresolved := h.resolve ComponentKind.response_respects hslot
  refine Build.ofResolved_bind_congr hresolved fun response response' hr => ?_
  simp only [lookupOr hslot (h.response _ hr)]

end Document.Reordered

/-! ### Steps with related results -/

/-- The steps declare the same enums, report the same events, and fail alike or give related
values. -/
def Build.Rel (R : α → β → Prop) (m : Build α) (m' : Build β) : Prop :=
  ∀ registry,
    (Compilation.run m.run registry).enums = (Compilation.run m'.run registry).enums ∧
      (Compilation.run m.run registry).events = (Compilation.run m'.run registry).events ∧
      ExceptRel R (Compilation.run m.run registry).value (Compilation.run m'.run registry).value

namespace Build.Rel

variable {R : α → β → Prop} {m : Build α} {m' : Build β}

theorem pure {a : α} {b : β} (hab : R a b) : Build.Rel R (Pure.pure a) (Pure.pure b) :=
  fun _ => ⟨rfl, rfl, ExceptRel.ok hab⟩

theorem refl (m : Build α) : Build.Rel Eq m m := by
  intro registry
  refine ⟨rfl, rfl, ?_⟩
  cases (Compilation.run m.run registry).value with
  | ok a => exact ExceptRel.ok rfl
  | error e => exact ExceptRel.error e

theorem bind {S : γ → δ → Prop} (hm : Build.Rel R m m') {f : α → Build γ} {f' : β → Build δ}
    (hf : ∀ a b, R a b → Build.Rel S (f a) (f' b)) : Build.Rel S (m >>= f) (m' >>= f') := by
  intro registry
  obtain ⟨henums, hevents, hvalue⟩ := hm registry
  rw [ExceptT.run_bind, ExceptT.run_bind, Compilation.run_bind, Compilation.run_bind, ← henums,
    ← hevents]
  generalize (Compilation.run m.run registry).value = result at hvalue ⊢
  generalize (Compilation.run m'.run registry).value = result' at hvalue ⊢
  cases hvalue with
  | ok hab =>
    obtain ⟨henums', hevents', hvalue'⟩ := hf _ _ hab (Compilation.run m.run registry).enums
    exact ⟨henums', congrArg _ hevents', hvalue'⟩
  | error e => exact ⟨rfl, rfl, ExceptRel.error e⟩

/-- The same step first, then steps with related results. -/
theorem behind {S : γ → δ → Prop} (m : Build α) {f : α → Build γ} {f' : α → Build δ}
    (hf : ∀ a, Build.Rel S (f a) (f' a)) : Build.Rel S (m >>= f) (m >>= f') :=
  (refl m).bind fun a _ heq => heq ▸ hf a

theorem inside (context : String) (hm : Build.Rel R m m') :
    Build.Rel R (Build.inside context m) (Build.inside context m') := by
  intro registry
  obtain ⟨henums, hevents, hvalue⟩ := hm registry
  refine ⟨henums, congrArg (· ++ []) hevents, ?_⟩
  show ExceptRel R (Except.mapError _ (Compilation.run m.run registry).value)
    (Except.mapError _ (Compilation.run m'.run registry).value)
  generalize (Compilation.run m.run registry).value = result at hvalue ⊢
  generalize (Compilation.run m'.run registry).value = result' at hvalue ⊢
  cases hvalue with
  | ok hab => exact ExceptRel.ok hab
  | error e => exact ExceptRel.error _

theorem ofResolved {result : Except CompileCause α} {result' : Except CompileCause β}
    (h : ExceptRel R result result') :
    Build.Rel R (Build.ofResolved result) (Build.ofResolved result') := by
  cases h with
  | ok hab => exact pure hab
  | error cause => exact fun _ => ⟨rfl, rfl, ExceptRel.error _⟩

theorem mapM {ι κ : Type} {Q : ι → κ → Prop} {g : ι → Build α} {g' : κ → Build β} {xs : List ι}
    {ys : List κ} (h : List.Forall₂ Q xs ys) (hg : ∀ x y, Q x y → Build.Rel R (g x) (g' y)) :
    Build.Rel (List.Forall₂ R) (xs.mapM g) (ys.mapM g') := by
  induction h with
  | nil =>
    rw [List.mapM_nil, List.mapM_nil]
    exact pure List.Forall₂.nil
  | cons hhead _ ih =>
    rw [List.mapM_cons, List.mapM_cons]
    refine (hg _ _ hhead).bind fun a b hab => ?_
    exact ih.bind fun as bs hall => pure (List.Forall₂.cons hab hall)

end Build.Rel

/-! ### Operations -/

theorem forall₂_firstNonEmpty {R : α → β → Prop} {lists : List (List α)} {lists' : List (List β)}
    (h : List.Forall₂ (List.Forall₂ R) lists lists') :
    List.Forall₂ R (firstNonEmpty lists) (firstNonEmpty lists') := by
  induction h with
  | nil => exact List.Forall₂.nil
  | cons hhead _ ih =>
    cases hhead with
    | nil => exact ih
    | cons hfirst hrest => exact List.Forall₂.cons hfirst hrest

theorem PathItem.Reordered.forall₂_operations {item item' : PathItem} (h : item.Reordered item') :
    List.Forall₂ (fun entry other => entry.1 = other.1 ∧ entry.2.Reordered other.2)
      item.operations item'.operations := by
  have hmethod : ∀ method, Option.Rel
      (fun entry other : Method × Operation => entry.1 = other.1 ∧ entry.2.Reordered other.2)
      ((item.operation? method).map fun op => (method, op))
      ((item'.operation? method).map fun op => (method, op)) := by
    intro method
    have hop := h.operations method
    generalize item.operation? method = op? at hop ⊢
    generalize item'.operation? method = op?' at hop ⊢
    cases hop with
    | some hsome => exact Option.Rel.some ⟨rfl, hsome⟩
    | none => exact Option.Rel.none
  exact List.rel_filterMap (R := Eq) (fun method _ heq => heq ▸ hmethod method)
    (List.forall₂_refl Method.compileOrder)

/-- The operations of both items have the same methods and the same texts. -/
def ItemTypes.SameText (item item' : ItemTypes) : Prop :=
  List.Forall₂ (fun entry other => entry.1 = other.1 ∧ entry.2.render = other.2.render) item item'

/-- The text of an operation depends on the types of its servers and requirements alone. -/
theorem OperationTypes.render_eq {op : OperationTypes} {security : List SecurityRequirement}
    {servers : List Server}
    (hsecurity : List.Forall₂ SecurityRequirement.Reordered op.security security)
    (hservers : List.Forall₂ Server.Reordered op.servers servers) :
    op.render = { op with security, servers }.render := by
  have hrequirements : op.renderSecurity = { op with security, servers }.renderSecurity := by
    unfold renderSecurity renderListField
    rw [isEmpty_eq_of_forall₂ hsecurity, SecurityRequirement.listType_eq hsecurity]
  have hlist : op.renderServers = { op with security, servers }.renderServers := by
    unfold renderServers renderListField
    rw [isEmpty_eq_of_forall₂ hservers, Server.listType_eq hservers]
  unfold render
  rw [hrequirements, hlist]
  rfl

namespace Document.Reordered

variable {doc doc' : Document} (h : doc.Reordered doc')
include h

theorem compileOperation {item item' : PathItem} (hitem : item.Reordered item')
    (shared : ParameterTable) (method : Method) {op op' : Operation} (hop : op.Reordered op') :
    Build.Rel (fun types types' => types.render = types'.render)
      (compileOperation doc item shared method op)
      (compileOperation doc' item' shared method op') := by
  unfold OpenApiTypings.compileOperation
  rw [h.compileParameters hop.parameters, h.compileRequestBody method hop,
    h.compileResponses method hop]
  refine Build.Rel.behind _ fun own => Build.Rel.behind _ fun _ => ?_
  refine Build.Rel.behind _ fun requestBody => Build.Rel.behind _ fun responses => ?_
  apply Build.Rel.pure
  apply OperationTypes.render_eq
  · exact forall₂_firstNonEmpty (.cons hop.security (.cons h.security .nil))
  · exact forall₂_firstNonEmpty (.cons hop.servers (.cons hitem.servers (.cons h.servers .nil)))

theorem compileItem {item item' : PathItem} (hitem : item.Reordered item') :
    Build.Rel ItemTypes.SameText (compileItem doc item) (compileItem doc' item') := by
  unfold OpenApiTypings.compileItem
  rw [h.compileParameters hitem.parameters]
  refine Build.Rel.behind _ fun shared => ?_
  refine Build.Rel.mapM hitem.forall₂_operations fun entry other hentry => ?_
  obtain ⟨method, op⟩ := entry
  obtain ⟨method', op'⟩ := other
  obtain ⟨rfl, hop⟩ := hentry
  exact (h.compileOperation hitem shared method hop).bind fun _ _ htext => .pure ⟨rfl, htext⟩

theorem compileItems (label : String) {items items' : Table (RefOr PathItem)}
    (hitems : Table.Reordered (RefOr.Rel PathItem.Reordered) items items') :
    Build.Rel
      (List.Forall₂ fun entry other => entry.1 = other.1 ∧ ItemTypes.SameText entry.2 other.2)
      (compileItems doc label items) (compileItems doc' label items') := by
  unfold OpenApiTypings.compileItems
  refine Build.Rel.bind (R := List.Forall₂ (Option.Rel fun entry other =>
    entry.1 = other.1 ∧ ItemTypes.SameText entry.2 other.2)) ?_
    fun compiled compiled' hcompiled => ?_
  · refine Build.Rel.mapM hitems.forall₂_sorted fun entry other hentry => ?_
    obtain ⟨key, slot⟩ := entry
    obtain ⟨key', slot'⟩ := other
    obtain ⟨rfl, hslot⟩ := hentry
    refine Build.Rel.bind (R := ItemTypes.SameText) (.inside _ ?_) fun types types' htypes => ?_
    · exact (Build.Rel.ofResolved (h.resolve ComponentKind.pathItem_respects hslot)).bind
        fun _ _ hitem => h.compileItem hitem
    · rw [isEmpty_eq_of_forall₂ htypes]
      split
      · exact Build.Rel.behind _ fun _ => .pure Option.Rel.none
      · exact .pure (Option.Rel.some ⟨rfl, htypes⟩)
  · exact .pure (List.rel_filterMap (fun _ _ hentry => hentry) hcompiled)

end Document.Reordered

end OpenApiTypings
