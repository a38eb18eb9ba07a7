import OpenApiTypings.Declarations.Build
import OpenApiTypings.Proofs.Declarations.Access
import OpenApiTypings.Proofs.Schema.Composed
import OpenApiTypings.Proofs.Table

/-!
# Types that a build stores

A build compiles types in few places: for the components, and for the parameters, request
bodies and responses of operations.  It stores their texts, and no others.  So what holds of
the texts of all types that are compiled in these places holds of every text that is stored.
-/

namespace OpenApiTypings

namespace Build

/-- The registry is only extended, and a value, if there is one, has the property in every
registry that is reached from then on. -/
def Ensures (m : Build α) (Q : Registry → α → Prop) : Prop :=
  Compilation.Ensures m.run fun registry result => ∀ a, result = .ok a → Q registry a

namespace Ensures

variable {m : Build α} {f : α → Build β} {Q Q' : Registry → α → Prop} {R : Registry → β → Prop}

theorem pure {a : α} (ha : ∀ registry, Q registry a) :
    Build.Ensures (Pure.pure a : Build α) Q := by
  refine Compilation.Ensures.pure fun registry b hb => ?_
  cases hb
  exact ha registry

theorem bind (hm : Build.Ensures m Q)
    (hf : ∀ a, Build.Ensures (f a) fun registry b => Q registry a → R registry b) :
    Build.Ensures (m >>= f) R := by
  refine Compilation.Ensures.bind hm fun result => ?_
  cases result with
  | ok a => exact Compilation.Ensures.mono (hf a) fun _ _ h hresult b hb => h b hb (hresult a rfl)
  | error e => exact Compilation.Ensures.pure fun _ _ => nofun

/-- What holds of a value whatever is declared may be used in the step that follows. -/
theorem assume {P : α → Prop} (hm : Build.Ensures m fun _ => P)
    (hf : ∀ a, P a → Build.Ensures (f a) R) : Build.Ensures (m >>= f) R := by
  intro registry
  obtain ⟨hreaches, hvalue⟩ := hm registry
  have hvalue := hvalue _ (Registry.Reaches.refl _)
  rw [ExceptT.run_bind, Compilation.run_bind]
  cases hresult : (Compilation.run m.run registry).value with
  | ok a =>
    obtain ⟨hreaches', hvalue'⟩ := hf a (hvalue a hresult) (Compilation.run m.run registry).enums
    exact ⟨hreaches.trans hreaches', hvalue'⟩
  | error e => exact ⟨hreaches, fun _ _ => nofun⟩

theorem mono (hm : Build.Ensures m Q) (hQ : ∀ registry a, Q registry a → Q' registry a) :
    Build.Ensures m Q' :=
  Compilation.Ensures.mono hm fun registry _ hresult a ha => hQ registry a (hresult a ha)

theorem ofCompilation {m : Compilation α} (hm : m.Ensures Q) :
    Build.Ensures (Build.ofCompilation m) Q := by
  refine Compilation.Ensures.last hm fun registry a ha b hb => ?_
  cases hb
  exact ha

theorem ofResolved (result : Except CompileCause α) :
    Build.Ensures (Build.ofResolved result) fun _ a => result = .ok a := by
  cases result with
  | ok a => exact pure fun _ => rfl
  | error cause => exact Compilation.Ensures.pure fun _ _ => nofun

theorem inside (context : String) (hm : Build.Ensures m Q) :
    Build.Ensures (Build.inside context m) Q := by
  refine Compilation.Ensures.last hm fun registry result hresult a ha => ?_
  cases result with
  | ok b =>
    cases ha
    exact hresult _ rfl
  | error e => cases ha

theorem last {f : α → β} (hm : Build.Ensures m Q)
    (hR : ∀ registry a, Q registry a → R registry (f a)) :
    Build.Ensures (m >>= fun a => Pure.pure (f a)) R :=
  bind hm fun _ => pure fun registry => hR registry _

/-- Of a list of steps, each ensures its property of its own value. -/
theorem mapM {g : α → Build β} {Q : α → Registry → β → Prop} {xs : List α}
    (hg : ∀ x ∈ xs, Build.Ensures (g x) (Q x)) :
    Build.Ensures (xs.mapM g) fun registry ys =>
      List.Forall₂ (fun x y => Q x registry y) xs ys := by
  induction xs with
  | nil =>
    rw [List.mapM_nil]
    exact pure fun _ => List.Forall₂.nil
  | cons x rest ih =>
    rw [List.mapM_cons]
    refine bind (hg x (List.mem_cons_self ..)) fun y => ?_
    refine last (ih fun x' hx' => hg x' (List.mem_cons_of_mem _ hx')) ?_
    exact fun _ _ hys hy => List.Forall₂.cons hy hys

theorem mapM_mem {g : α → Build β} {xs : List α} (hg : ∀ x ∈ xs, Build.Ensures (g x) R) :
    Build.Ensures (xs.mapM g) fun registry ys => ∀ y ∈ ys, R registry y := by
  refine (mapM (Q := fun _ => R) hg).mono fun registry ys hys y hy => ?_
  obtain ⟨-, -, hR⟩ := exists_left_of_mem hys hy
  exact hR

end Ensures

end Build

/-! ### Types that are compiled for a document -/

/-- The names under which a section of components is declared.  Items are not declared. -/
def Components.names (components : Components) : Section → List String
  | .schemas => components.schemas.keys
  | .responses => components.responses.keys
  | .requestBodies => components.requestBodies.keys
  | .parameters => components.parameters.keys
  | .headers => components.headers.keys
  | .securitySchemes => components.securitySchemes.keys
  | .pathItems => []

/-- The names under which a section of the document is declared; none without components. -/
def Document.names (doc : Document) (sec : Section) : List String :=
  match doc.components with
  | some components => components.names sec
  | none => []

/-- The entries of the kind are what its section declares. -/
def ComponentKind.IsDeclared (kind : ComponentKind α) : Prop :=
  ∀ components : Components, (kind.entries components).keys = components.names kind.sec

/-- A property that is kept in types and holds of the look-ups of what the document has. -/
structure Document.KeptInTypes (doc : Document) (Q : Registry → TypeExpr → Prop) : Prop
    extends Schema.KeptInTypes Q where
  lookup : ∀ registry {sec name}, name ∈ doc.names sec → Q registry (.component sec name)

/-- A reference that can be resolved is looked up under a name that the document has. -/
theorem mem_names_of_lookup? {kind : ComponentKind α} (hkind : kind.IsDeclared) {doc : Document}
    {slot : RefOr α} {value : α} (hresolve : resolve kind doc slot = .ok value) {sec : Section}
    {name : String} (hlookup : lookup? kind slot = some (sec, name)) : name ∈ doc.names sec := by
  cases slot with
  | inline value => cases hlookup
  | reference pointer =>
    obtain ⟨name', hname', heq⟩ := Option.bind_eq_some_iff.mp hlookup
    cases heq
    simp only [resolve, hname'] at hresolve
    unfold Document.names
    cases hcomponents : doc.components with
    | none =>
      rw [hcomponents] at hresolve
      cases hresolve
    | some components =>
      rw [hcomponents] at hresolve
      simp only at hresolve ⊢
      rw [← hkind components]
      cases hget : (kind.entries components).get? name with
      | none =>
        rw [hget] at hresolve
        cases hresolve
      | some entry => exact List.mem_map.mpr ⟨(name, entry), Table.mem_of_get? hget, rfl⟩

namespace Document

/-- The computations that give the types which a build stores.  The types of components are
compiled in place, and those of operations are look-ups where they are references. -/
inductive Compiles (doc : Document) : Compilation TypeExpr → Prop
  | componentSchema (name : String) (slot : RefOr Json) :
      Compiles doc (Schema.compile doc.schemas slot (.top .component name))
  | componentResponse (name : String) (response : Response) :
      Compiles doc (response.compile doc name)
  | componentRequestBody (name : String) (body : RequestBody) :
      Compiles doc (body.compile doc name)
  | componentParameter (name : String) (parameter : Parameter) :
      Compiles doc (parameter.compile doc name)
  | componentHeader (name : String) (header : Header) : Compiles doc (header.compile doc name)
  | componentSecurityScheme (scheme : SecurityScheme) : Compiles doc (pure scheme.type)
  | parameter {slot : RefOr Parameter} {parameter : Parameter}
      (h : resolve .parameter doc slot = .ok parameter) :
      Compiles doc (lookupOr .parameter slot (parameter.compile doc parameter.name))
  | requestBody (method : Method) {slot : RefOr RequestBody} {body : RequestBody}
      (h : resolve .requestBody doc slot = .ok body) :
      Compiles doc (lookupOr .requestBody slot
        (body.compile doc (Text.joinHint method.key "RequestBody")))
  | response (method : Method) (code : String) {slot : RefOr Response} {response : Response}
      (h : resolve .response doc slot = .ok response) :
      Compiles doc (lookupOr .response slot
        (response.compile doc (Text.joinHint method.key ("Response_" ++ code))))

namespace KeptInTypes

open Compilation (Ensures)

variable {doc : Document} {Q : Registry → TypeExpr → Prop} (hQ : doc.KeptInTypes Q)
include hQ

theorem contentType (content : Table MediaType) {empty : TypeExpr}
    (hempty : ∀ registry, Q registry empty) (hint : String) (mode : Schema.Mode) :
    (contentType doc content empty hint mode).Ensures Q := by
  unfold OpenApiTypings.contentType
  split
  · exact Ensures.pure hempty
  refine Ensures.last (Ensures.mapM_mem fun entry _ =>
    hQ.compileOptional doc.schemas entry.2.schema _) fun registry types htypes => ?_
  apply (hQ.composes registry).unionOf
  exact fun part hpart => htypes part (mem_of_mem_distinctBy hpart)

theorem schemaOrContentType (schema : Option (RefOr Json)) (content : Table MediaType)
    (hint : String) (mode : Schema.Mode) :
    (schemaOrContentType doc schema content hint mode).Ensures Q := by
  cases schema with
  | some slot => exact hQ.compile doc.schemas slot _
  | none => exact hQ.contentType content (fun registry => (hQ.composes registry).unknown) hint mode

theorem lookupOr {kind : ComponentKind α} (hkind : kind.IsDeclared) {slot : RefOr α} {value : α}
    (hresolve : resolve kind doc slot = .ok value) {m : Compilation TypeExpr} (hm : m.Ensures Q) :
    (lookupOr kind slot m).Ensures Q := by
  unfold OpenApiTypings.lookupOr
  split
  · rename_i sec name hlookup
    exact Ensures.pure fun registry =>
      hQ.lookup registry (mem_names_of_lookup? hkind hresolve hlookup)
  · exact hm

theorem responseHeaderField (name : String) (slot : RefOr Header) :
    (responseHeaderField doc name slot).Ensures fun registry f => Q registry f.type := by
  unfold OpenApiTypings.responseHeaderField
  split
  · rename_i header hresolve
    refine Ensures.last (hQ.lookupOr (fun _ => rfl) hresolve ?_) fun _ _ h => h
    exact hQ.schemaOrContentType header.schema header.content name .output
  · exact Ensures.bind (Ensures.note _ (Q := fun _ _ => True) fun _ => trivial) fun _ =>
      Ensures.pure fun registry _ => (hQ.composes registry).unknown

theorem response (hint : String) (response : Response) :
    (response.compile doc hint).Ensures Q := by
  unfold Response.compile
  refine Ensures.bind (hQ.contentType response.content
    (fun registry => (hQ.composes registry).never) hint .output) fun body => ?_
  split
  · exact Ensures.pure fun _ hbody => hbody
  refine Ensures.last (Ensures.mapM_mem fun entry _ =>
    hQ.responseHeaderField entry.1 entry.2) fun registry headers hheaders hbody => ?_
  have hP : TypeExpr.Composes (Q registry) := hQ.composes registry
  exact hP.object (Field.All.cons (hP.objectOf hheaders) (Field.all_singleton hbody))

/-- A property that is kept in types holds of every type that is compiled. -/
theorem compiles {m : Compilation TypeExpr} (h : doc.Compiles m) : m.Ensures Q := by
  have hunknown : ∀ registry, Q registry .unknown := fun registry => (hQ.composes registry).unknown
  cases h with
  | componentSchema name slot => exact hQ.compile doc.schemas slot _
  | componentResponse name response => exact hQ.response name response
  | componentRequestBody name body => exact hQ.contentType body.content hunknown name .input
  | componentParameter name parameter =>
    exact hQ.schemaOrContentType parameter.schema parameter.content name .input
  | componentHeader name header =>
    exact hQ.schemaOrContentType header.schema header.content name .output
  | componentSecurityScheme scheme =>
    exact Ensures.pure fun registry => scheme.type_composes (hQ.composes registry)
  | parameter h =>
    exact hQ.lookupOr (fun _ => rfl) h (hQ.schemaOrContentType _ _ _ .input)
  | requestBody method h =>
    exact hQ.lookupOr (fun _ => rfl) h (hQ.contentType _ hunknown _ .input)
  | response method code h => exact hQ.lookupOr (fun _ => rfl) h (hQ.response _ _)

end KeptInTypes

end Document

end OpenApiTypings
