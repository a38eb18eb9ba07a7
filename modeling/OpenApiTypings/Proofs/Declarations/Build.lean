import OpenApiTypings.Proofs.Declarations.Resolution
import OpenApiTypings.Proofs.Declarations.Stored

/-!
# What a build stores

The builder is walked function by function.  Whatever holds of the texts of the types that
are compiled for a document holds of every text that is stored; and the sections that are
stored have the names that the document has.  One property of this kind is that the text is
atomic.
-/

namespace OpenApiTypings

/-! ### Stored texts -/

/-- The property holds of every type that is stored for an operation. -/
structure OperationTypes.Stores (P : String → Prop) (op : OperationTypes) : Prop where
  path : ∀ entry ∈ op.path, P entry.2.type
  query : ∀ entry ∈ op.query, P entry.2.type
  header : ∀ entry ∈ op.header, P entry.2.type
  cookie : ∀ entry ∈ op.cookie, P entry.2.type
  requestBody : ∀ body, op.requestBody = some body → P body
  responses : ∀ entry ∈ op.responses, P entry.2

/-- The property holds of every type that is stored for the operations of an item. -/
def ItemTypes.Stores (P : String → Prop) (item : ItemTypes) : Prop :=
  ∀ entry ∈ item, entry.2.Stores P

/-- The property holds of every stored type. -/
structure Declarations.Stores (P : String → Prop) (decls : Declarations) : Prop where
  sections : ∀ entry ∈ decls.sections, ∀ stored ∈ entry.2, P stored.2
  paths : ∀ entry ∈ decls.paths, ItemTypes.Stores P entry.2
  webhooks : ∀ entry ∈ decls.webhooks, ItemTypes.Stores P entry.2

/-- The names that a section declares. -/
def Declarations.names (decls : Declarations) (sec : Section) : List String :=
  ((List.lookup sec decls.sections).getD []).keys

/-- The sections declare the names that the document has. -/
def Declarations.NamedBy (decls : Declarations) (doc : Document) : Prop :=
  ∀ sec name, name ∈ decls.names sec ↔ name ∈ doc.names sec

/-- The property holds of every type of the table, and its names are those of the entries. -/
def StoredFor (P : String → Prop) (entries : Table α) (table : Table String) : Prop :=
  (∀ stored ∈ table, P stored.2) ∧ ∀ name, name ∈ table.keys ↔ name ∈ entries.keys

theorem storedFor_of_forall₂ {P : String → Prop} {entries : Table α} {table : Table String}
    (h : List.Forall₂ (fun entry stored => stored.1 = entry.1 ∧ P stored.2)
      (Table.sorted entries) table) : StoredFor P entries table := by
  refine ⟨fun stored hstored => ?_, fun name => ?_⟩
  · obtain ⟨_, -, -, hP⟩ := exists_left_of_mem h hstored
    exact hP
  · rw [Table.keys_eq_of_forall₂ (fun _ _ hentry => hentry.1) h]
    exact Table.mem_keys_sorted

section Compiled

variable (doc : Document) {T : Registry → String → Prop}
  (hT : ∀ m : Compilation TypeExpr, doc.Compiles m →
    m.Ensures fun registry type => T registry type.render)
include hT

/-! ### Components -/

theorem compileSection_stores (kind : ComponentKind α) (entries : Table (RefOr α))
    {compile : String → α → Compilation TypeExpr}
    (hcompile : ∀ name value, doc.Compiles (compile name value)) :
    Build.Ensures (compileSection doc kind entries compile) fun registry =>
      StoredFor (T registry) entries := by
  unfold compileSection
  refine (Build.Ensures.mapM (Q := fun (entry : String × RefOr α) registry
    (stored : String × String) => stored.1 = entry.1 ∧ T registry stored.2) ?_).mono
    fun _ _ => storedFor_of_forall₂
  rintro ⟨name, slot⟩ -
  refine Build.Ensures.assume (.inside _ (.ofResolved _)) fun value _ => ?_
  exact .last (.ofCompilation (hT _ (hcompile name value))) fun _ _ h => ⟨rfl, h⟩

theorem compileSchemas_stores (entries : Table (RefOr Json)) :
    (compileSchemas doc entries).Ensures fun registry => StoredFor (T registry) entries := by
  unfold compileSchemas
  refine (Compilation.Ensures.mapM (Q := fun (entry : String × RefOr Json) registry
    (stored : String × String) => stored.1 = entry.1 ∧ T registry stored.2) ?_).mono
    fun _ _ => storedFor_of_forall₂
  rintro ⟨name, slot⟩ -
  exact .last (hT _ (.componentSchema name slot)) fun _ _ h => ⟨rfl, h⟩

theorem compileComponents_stores :
    Build.Ensures (compileComponents doc) fun registry decls =>
      (∀ entry ∈ decls.sections, ∀ stored ∈ entry.2, T registry stored.2) ∧
        decls.NamedBy doc := by
  unfold compileComponents
  cases hcomponents : doc.components with
  | none =>
    refine Build.Ensures.pure fun registry => ⟨?_, fun sec name => ?_⟩
    · intro entry hentry
      simp only [Declarations.sections, List.mem_cons, List.not_mem_nil, or_false] at hentry
      rcases hentry with rfl | rfl | rfl | rfl | rfl | rfl <;>
        exact fun _ h => absurd h List.not_mem_nil
    · rw [Document.names, hcomponents]
      cases sec <;> exact Iff.rfl
  | some components =>
    refine Build.Ensures.bind
      (.ofCompilation (compileSchemas_stores doc hT components.schemas)) fun schemas => ?_
    refine .bind (compileSection_stores doc hT .response components.responses
      .componentResponse) fun responses => ?_
    refine .bind (compileSection_stores doc hT .requestBody components.requestBodies
      .componentRequestBody) fun requestBodies => ?_
    refine .bind (compileSection_stores doc hT .parameter components.parameters
      .componentParameter) fun parameters => ?_
    refine .bind (compileSection_stores doc hT .header components.headers .componentHeader)
      fun headers => ?_
    refine .last (compileSection_stores doc hT .securityScheme components.securitySchemes
      fun _ => .componentSecurityScheme) ?_
    intro registry securitySchemes hsecuritySchemes hheaders hparameters hrequestBodies
      hresponses hschemas
    refine ⟨?_, fun sec name => ?_⟩
    · intro entry hentry
      simp only [Declarations.sections, List.mem_cons, List.not_mem_nil, or_false] at hentry
      rcases hentry with rfl | rfl | rfl | rfl | rfl | rfl
      · exact hschemas.1
      · exact hresponses.1
      · exact hrequestBodies.1
      · exact hparameters.1
      · exact hheaders.1
      · exact hsecuritySchemes.1
    · rw [Document.names, hcomponents]
      cases sec with
      | schemas => exact hschemas.2 name
      | responses => exact hresponses.2 name
      | requestBodies => exact hrequestBodies.2 name
      | parameters => exact hparameters.2 name
      | headers => exact hheaders.2 name
      | securitySchemes => exact hsecuritySchemes.2 name
      | pathItems => exact Iff.rfl

/-! ### Operations -/

theorem compileParameters_stores (slots : List (RefOr Parameter)) :
    Build.Ensures (compileParameters doc slots) fun registry parameters =>
      ∀ entry ∈ parameters, T registry entry.2.type := by
  unfold compileParameters
  refine Build.Ensures.last (.mapM_mem (R := fun registry
    (entry : ParameterKey × ParameterType) => T registry entry.2.type) ?_) ?_
  · intro slot _
    refine Build.Ensures.assume (.ofResolved _) fun parameter hresolve => ?_
    exact .last (.ofCompilation (hT _ (.parameter hresolve))) fun _ _ h => h
  · exact fun _ entries hentries entry hentry => hentries entry (Table.mem_of_mem_sorted hentry)

theorem compileRequestBody_stores (method : Method) (op : Operation) :
    Build.Ensures (compileRequestBody doc method op) fun registry body? =>
      ∀ body, body? = some body → T registry body := by
  unfold compileRequestBody
  split
  · exact Build.Ensures.pure fun _ => nofun
  · refine Build.Ensures.assume (.ofResolved _) fun body hresolve => ?_
    refine .last (.ofCompilation (hT _ (.requestBody method hresolve))) fun _ type htype => ?_
    intro text htext
    cases htext
    exact htype

theorem compileResponses_stores (method : Method) (op : Operation) :
    Build.Ensures (compileResponses doc method op) fun registry responses =>
      ∀ entry ∈ responses, T registry entry.2 := by
  unfold compileResponses
  refine Build.Ensures.mapM_mem (R := fun registry (entry : String × String) =>
    T registry entry.2) ?_
  rintro ⟨code, slot⟩ -
  refine Build.Ensures.assume (.ofResolved _) fun response hresolve => ?_
  exact .last (.ofCompilation (hT _ (.response method code hresolve))) fun _ _ h => h

omit hT in
theorem mem_parametersIn {parameters : ParameterTable} {location : String}
    {entry : String × ParameterType} :
    entry ∈ parametersIn parameters location ↔ (⟨entry.1, location⟩, entry.2) ∈ parameters := by
  unfold parametersIn
  rw [List.mem_filterMap]
  constructor
  · rintro ⟨⟨key, type⟩, hmem, hsome⟩
    simp only [Option.ite_none_right_eq_some, Option.some.injEq] at hsome
    obtain ⟨rfl, rfl⟩ := hsome
    exact hmem
  · exact fun hmem => ⟨_, hmem, if_pos rfl⟩

theorem compileOperation_stores (item : PathItem) (shared : ParameterTable) (method : Method)
    (op : Operation) :
    Build.Ensures (compileOperation doc item shared method op) fun registry types =>
      (∀ entry ∈ shared, T registry entry.2.type) → types.Stores (T registry) := by
  unfold compileOperation
  refine Build.Ensures.bind (.inside _ (compileParameters_stores doc hT op.parameters))
    fun own => ?_
  refine .bind (.ofCompilation (noteDropped_makes _).ensures) fun _ => ?_
  refine .bind (.inside _ (compileRequestBody_stores doc hT method op)) fun requestBody => ?_
  refine .last (.inside _ (compileResponses_stores doc hT method op)) ?_
  intro registry responses hresponses hrequestBody _ hown hshared
  have hin : ∀ location, ∀ entry ∈ parametersIn (Table.sorted (shared ++ own)) location,
      T registry entry.2.type := by
    intro location entry hentry
    have hmerged := Table.mem_of_mem_sorted (mem_parametersIn.mp hentry)
    rcases List.mem_append.mp hmerged with h | h
    · exact hshared _ h
    · exact hown _ h
  exact ⟨hin "path", hin "query", hin "header", hin "cookie", hrequestBody, hresponses⟩

theorem compileItem_stores (item : PathItem) :
    Build.Ensures (compileItem doc item) fun registry => ItemTypes.Stores (T registry) := by
  unfold compileItem
  refine Build.Ensures.bind (compileParameters_stores doc hT item.parameters) fun shared => ?_
  refine (Build.Ensures.mapM_mem (R := fun registry (entry : Method × OperationTypes) =>
    (∀ entry ∈ shared, T registry entry.2.type) → entry.2.Stores (T registry)) ?_).mono ?_
  · rintro ⟨method, op⟩ -
    exact .last (compileOperation_stores doc hT item shared method op) fun _ _ h => h
  · exact fun _ _ h hshared entry hentry => h entry hentry hshared

omit hT in
/-- What compiling an item ensures of its types holds of all types that are stored for the items
which a table leads to. -/
theorem compileItems_ensures {P : Registry → PathItem → ItemTypes → Prop}
    (hitem : ∀ item, Build.Ensures (compileItem doc item) fun registry => P registry item)
    (label : String) (items : Table (RefOr PathItem)) :
    Build.Ensures (compileItems doc label items) fun registry compiled =>
      ∀ entry ∈ compiled, ∃ slot item, (entry.1, slot) ∈ Table.sorted items ∧
        resolve .pathItem doc slot = .ok item ∧ P registry item entry.2 := by
  unfold compileItems
  refine Build.Ensures.last (.mapM_mem (R := fun registry (stored : Option (String × ItemTypes)) =>
    ∀ entry, stored = some entry → ∃ slot item, (entry.1, slot) ∈ Table.sorted items ∧
      resolve .pathItem doc slot = .ok item ∧ P registry item entry.2) ?_) ?_
  · rintro ⟨key, slot⟩ hslot
    refine Build.Ensures.bind (Q := fun registry types =>
      ∃ item, resolve .pathItem doc slot = .ok item ∧ P registry item types) (.inside _ ?_) ?_
    · refine Build.Ensures.assume (.ofResolved _) fun item hresolve => ?_
      exact (hitem item).mono fun _ _ htypes => ⟨item, hresolve, htypes⟩
    · intro types
      split
      · refine Build.Ensures.last (Q := fun _ _ => True) ?_ fun _ _ _ _ => nofun
        exact .ofCompilation (Compilation.Makes.note _).ensures
      · refine Build.Ensures.pure fun registry htypes entry hentry => ?_
        cases hentry
        obtain ⟨item, hresolve, hP⟩ := htypes
        exact ⟨slot, item, hslot, hresolve, hP⟩
  · intro registry compiled hcompiled entry hentry
    obtain ⟨stored, hmem, hsome⟩ := List.mem_filterMap.mp hentry
    exact hcompiled stored hmem entry hsome

theorem compileItems_stores (label : String) (items : Table (RefOr PathItem)) :
    Build.Ensures (compileItems doc label items) fun registry compiled =>
      ∀ entry ∈ compiled, ItemTypes.Stores (T registry) entry.2 := by
  refine (compileItems_ensures doc (compileItem_stores doc hT) label items).mono ?_
  intro _ _ hcompiled entry hentry
  obtain ⟨-, -, -, -, hstores⟩ := hcompiled entry hentry
  exact hstores

/-! ### Documents -/

theorem compileDocument_stores :
    Build.Ensures (compileDocument doc) fun registry decls =>
      decls.Stores (T registry) ∧ decls.NamedBy doc := by
  unfold compileDocument
  refine Build.Ensures.bind (compileComponents_stores doc hT) fun components => ?_
  refine .bind (compileItems_stores doc hT "path" doc.paths) fun paths => ?_
  refine .last (compileItems_stores doc hT "webhook" doc.webhooks) ?_
  intro registry webhooks hwebhooks hpaths hcomponents
  exact ⟨⟨hcomponents.1, hpaths, hwebhooks⟩, hcomponents.2⟩

end Compiled

/-- What its steps ensure holds of what a build gives.  The enums are put in at the end, from the
registry that the steps leave. -/
theorem exists_of_build {doc : Document} {decls : Declarations} (h : build doc = .ok decls)
    {P : Registry → Declarations → Prop} (hP : Build.Ensures (compileDocument doc) P) :
    ∃ stored, decls = { stored with enums := decls.enums } ∧ P ⟨decls.enums⟩ stored ∧
      Registry.empty.Reaches ⟨decls.enums⟩ := by
  obtain ⟨hreaches, hvalue⟩ := hP Registry.empty
  rw [build_eq] at h
  cases hresult : (Compilation.run (compileDocument doc).run Registry.empty).value with
  | error error =>
    rw [hresult] at h
    cases h
  | ok stored =>
    rw [hresult] at h
    cases h
    exact ⟨stored, rfl, hvalue _ (Registry.Reaches.refl _) stored hresult, hreaches⟩

/-- What holds of the texts of all types that are compiled for a document holds of the texts
that a build stores, in the registry of its enums. -/
theorem stores_of_build {doc : Document} {decls : Declarations} (h : build doc = .ok decls)
    {T : Registry → String → Prop}
    (hT : ∀ m : Compilation TypeExpr, doc.Compiles m →
      m.Ensures fun registry type => T registry type.render) :
    decls.Stores (T ⟨decls.enums⟩) ∧ decls.NamedBy doc ∧
      Registry.empty.Reaches ⟨decls.enums⟩ := by
  obtain ⟨stored, heq, ⟨hstores, hnames⟩, hreaches⟩ :=
    exists_of_build h (compileDocument_stores doc hT)
  refine ⟨?_, ?_, hreaches⟩
  · rw [heq]
    exact ⟨hstores.sections, hstores.paths, hstores.webhooks⟩
  · rw [heq]
    exact hnames

/-! ### Atomic texts -/

/-- All texts of a table are atomic. -/
def AtomicTexts (table : Table String) : Prop :=
  ∀ entry ∈ table, Text.Atomic entry.2.toList

/-- All types of a list of parameters are atomic. -/
def AtomicParameters (parameters : List (κ × ParameterType)) : Prop :=
  ∀ entry ∈ parameters, Text.Atomic entry.2.type.toList

/-- Every type that is stored for an operation is atomic. -/
structure OperationTypes.Atomic (op : OperationTypes) : Prop where
  path : AtomicParameters op.path
  query : AtomicParameters op.query
  header : AtomicParameters op.header
  cookie : AtomicParameters op.cookie
  requestBody : ∀ body, op.requestBody = some body → Text.Atomic body.toList
  responses : AtomicTexts op.responses

/-- Every type that is stored for the operations of an item is atomic. -/
def ItemTypes.Atomic (item : ItemTypes) : Prop := ∀ entry ∈ item, entry.2.Atomic

/-- Every stored type is atomic. -/
structure Declarations.Atomic (decls : Declarations) : Prop where
  sections : ∀ entry ∈ decls.sections, AtomicTexts entry.2
  paths : ∀ entry ∈ decls.paths, ItemTypes.Atomic entry.2
  webhooks : ∀ entry ∈ decls.webhooks, ItemTypes.Atomic entry.2

theorem ItemTypes.Stores.atomic {item : ItemTypes}
    (h : item.Stores fun text => Text.Atomic text.toList) : ItemTypes.Atomic item := by
  intro entry hentry
  have hop := h entry hentry
  exact ⟨hop.path, hop.query, hop.header, hop.cookie, hop.requestBody, hop.responses⟩

theorem Document.keptInTypes_atomic (doc : Document) :
    doc.KeptInTypes fun _ type => type.Atomic where
  toKeptInTypes := Schema.keptInTypes_atomic
  lookup _ sec name _ := TypeExpr.atomic_component sec name

/-- Compiling a type for the document only adds enums. -/
theorem Document.Compiles.ensures {doc : Document} {m : Compilation TypeExpr}
    (h : doc.Compiles m) : m.Ensures fun _ _ => True :=
  (doc.keptInTypes_atomic.compiles h).mono fun _ _ _ => trivial

/-- A build that succeeds stores atomic types alone, and its enums are sound. -/
theorem build_stored {doc : Document} {decls : Declarations} (h : build doc = .ok decls) :
    decls.Atomic ∧ (Registry.mk decls.enums).Sound := by
  obtain ⟨hstores, -, hreaches⟩ := stores_of_build (T := fun _ text => Text.Atomic text.toList) h
    fun _ hm => doc.keptInTypes_atomic.compiles hm
  refine ⟨⟨hstores.sections, fun entry hentry => ?_, fun entry hentry => ?_⟩, ?_⟩
  · exact (hstores.paths entry hentry).atomic
  · exact (hstores.webhooks entry hentry).atomic
  · exact hreaches.sound Registry.sound_empty

end OpenApiTypings
