import OpenApiTypings.Proofs.Declarations.Frame

/-!
# What the sections hold

Each section of components is compiled entry by entry, in the order of the names.  So the
section that is declared has the same names, each of them once, and under each name stands the
text of the object that its entry leads to, compiled under that name.
-/

namespace OpenApiTypings

/-! ### Keys -/

/-- These are the keys with the property, each of them once. -/
def ListsExactly (keys : List κ) (p : κ → Prop) : Prop :=
  keys.Nodup ∧ ∀ key, key ∈ keys ↔ p key

theorem listsExactly_nil {p : κ → Prop} (h : ∀ key, ¬ p key) : ListsExactly [] p :=
  ⟨List.nodup_nil, fun key =>
    ⟨fun hkey => absurd hkey List.not_mem_nil, fun hp => absurd hp (h key)⟩⟩

namespace Table

/-- Sorting lists the keys of a table, each of them once. -/
theorem listsExactly_keys_sorted (entries : Table α) :
    ListsExactly (keys (sorted entries)) (· ∈ entries.keys) :=
  ⟨nodup_keys_sorted entries, fun _ => mem_keys_sorted⟩

/-- A table that was made entry by entry, in the order of the keys, has the keys of the entries. -/
theorem listsExactly_of_forall₂ {R : String × α → String × β → Prop}
    (hR : ∀ entry stored, R entry stored → stored.1 = entry.1) {entries : Table α}
    {table : Table β} (h : List.Forall₂ R (sorted entries) table) :
    ListsExactly table.keys (· ∈ entries.keys) := by
  rw [keys_eq_of_forall₂ hR h]
  exact listsExactly_keys_sorted entries

end Table

/-! ### Sections -/

/-- The types of a section, by name. -/
def Declarations.table (decls : Declarations) (sec : Section) : Table String :=
  (List.lookup sec decls.sections).getD []

/-- How the objects of a kind are compiled under their names. -/
inductive ComponentKind.CompiledBy (doc : Document) :
    {α : Type} → ComponentKind α → (String → α → Compilation TypeExpr) → Prop
  | response : CompiledBy doc .response (Response.compile doc)
  | requestBody : CompiledBy doc .requestBody (RequestBody.compile doc)
  | parameter : CompiledBy doc .parameter (Parameter.compile doc)
  | header : CompiledBy doc .header (Header.compile doc)
  | securityScheme : CompiledBy doc .securityScheme fun _ scheme => return scheme.type

/-- What is stored for an entry: under its name the text of the object that it leads to, compiled
under that name on the way to the registry. -/
def StoredFrom (doc : Document) (kind : ComponentKind α)
    (compile : String → α → Compilation TypeExpr) (registry : Registry)
    (entry : String × RefOr α) (stored : String × String) : Prop :=
  stored.1 = entry.1 ∧ ∃ value start, resolve kind doc entry.2 = .ok value ∧
    ((compile entry.1 value).run start).enums.Reaches registry ∧
    stored.2 = ((compile entry.1 value).run start).value.render

/-- The sections hold what stands in the components. -/
structure Declarations.SectionsFrom (decls : Declarations) (doc : Document)
    (components : Components) (registry : Registry) : Prop where
  schemas : (decls.table .schemas).keys = Table.keys (Table.sorted components.schemas)
  compiled : ∀ {α : Type} {kind : ComponentKind α} {compile}, kind.CompiledBy doc compile →
    List.Forall₂ (StoredFrom doc kind compile registry) (Table.sorted (kind.entries components))
      (decls.table kind.sec)

section Compiled

variable (doc : Document)

theorem ComponentKind.CompiledBy.compiles {doc : Document} {kind : ComponentKind α}
    {compile : String → α → Compilation TypeExpr} (h : kind.CompiledBy doc compile) (name : String)
    (value : α) : doc.Compiles (compile name value) := by
  cases h with
  | response => exact .componentResponse name value
  | requestBody => exact .componentRequestBody name value
  | parameter => exact .componentParameter name value
  | header => exact .componentHeader name value
  | securityScheme => exact .componentSecurityScheme value

theorem compileSection_storedFrom {kind : ComponentKind α}
    {compile : String → α → Compilation TypeExpr} (hkind : kind.CompiledBy doc compile)
    (entries : Table (RefOr α)) :
    Build.Ensures (compileSection doc kind entries compile) fun registry =>
      List.Forall₂ (StoredFrom doc kind compile registry) (Table.sorted entries) := by
  refine Build.Ensures.mapM (Q := fun entry registry stored =>
    StoredFrom doc kind compile registry entry stored) ?_
  rintro ⟨name, slot⟩ -
  refine .assume (.inside _ (.ofResolved _)) fun value hvalue => ?_
  have hcompiled : (compile name value).Ensures fun registry type => ∃ start,
      ((compile name value).run start).enums.Reaches registry ∧
        type = ((compile name value).run start).value := by
    intro registry
    have hreaches := ((hkind.compiles name value).ensures registry).1
    exact ⟨hreaches, fun later hlater => ⟨registry, hlater, rfl⟩⟩
  refine .last (.ofCompilation hcompiled) ?_
  rintro registry type ⟨start, hreaches, rfl⟩
  exact ⟨rfl, value, start, hvalue, hreaches, rfl⟩

theorem compileSchemas_keys (entries : Table (RefOr Json)) :
    (compileSchemas doc entries).Ensures fun _ table =>
      table.keys = Table.keys (Table.sorted entries) := by
  refine (Compilation.Ensures.mapM (Q := fun (entry : String × RefOr Json) _
    (stored : String × String) => stored.1 = entry.1) ?_).mono
    fun _ _ => Table.keys_eq_of_forall₂ fun _ _ hentry => hentry
  rintro ⟨name, slot⟩ -
  exact .last (Document.Compiles.componentSchema name slot).ensures fun _ _ _ => rfl

theorem compileComponents_sectionsFrom {components : Components}
    (hcomponents : doc.components = some components) :
    Build.Ensures (compileComponents doc) fun registry decls =>
      decls.SectionsFrom doc components registry := by
  unfold compileComponents
  rw [hcomponents]
  refine Build.Ensures.bind (.ofCompilation (compileSchemas_keys doc components.schemas))
    fun schemas => ?_
  refine .bind (compileSection_storedFrom doc .response components.responses)
    fun responses => ?_
  refine .bind (compileSection_storedFrom doc .requestBody components.requestBodies)
    fun requestBodies => ?_
  refine .bind (compileSection_storedFrom doc .parameter components.parameters)
    fun parameters => ?_
  refine .bind (compileSection_storedFrom doc .header components.headers) fun headers => ?_
  refine .last (compileSection_storedFrom doc .securityScheme components.securitySchemes) ?_
  intro registry securitySchemes hsecuritySchemes hheaders hparameters hrequestBodies hresponses
    hschemas
  refine ⟨hschemas, fun hkind => ?_⟩
  cases hkind with
  | response => exact hresponses
  | requestBody => exact hrequestBodies
  | parameter => exact hparameters
  | header => exact hheaders
  | securityScheme => exact hsecuritySchemes

end Compiled

theorem Declarations.SectionsFrom.congr {decls parts : Declarations} {doc : Document}
    {components : Components} {registry : Registry}
    (h : parts.SectionsFrom doc components registry) (hsections : decls.sections = parts.sections) :
    decls.SectionsFrom doc components registry := by
  have htable : decls.table = parts.table := by
    funext sec
    simp only [Declarations.table, hsections]
  refine ⟨?_, fun hkind => ?_⟩
  · rw [htable]
    exact h.schemas
  · rw [htable]
    exact h.compiled hkind

/-- The sections that a build gives hold what stands in the components of the document. -/
theorem sectionsFrom_of_build {doc : Document} {decls : Declarations} {components : Components}
    (h : build doc = .ok decls) (hcomponents : doc.components = some components) :
    decls.SectionsFrom doc components ⟨decls.enums⟩ := by
  obtain ⟨parts, hparts, hsections, hreaches⟩ := exists_parts_of_build h
  obtain ⟨-, hkept⟩ := compileComponents_sectionsFrom doc hcomponents Registry.empty
  exact (hkept _ hreaches parts hparts).congr hsections

/-- Without components every section is empty. -/
theorem table_eq_nil_of_build {doc : Document} {decls : Declarations}
    (h : build doc = .ok decls) (hcomponents : doc.components = none) (sec : Section) :
    decls.table sec = [] := by
  obtain ⟨parts, hparts, hsections, -⟩ := exists_parts_of_build h
  unfold compileComponents at hparts
  rw [hcomponents] at hparts
  cases hparts
  unfold Declarations.table
  rw [hsections]
  cases sec <;> rfl

/-- The sections that a build gives have the names of the sections of the document, each of them
once. -/
theorem listsExactly_names_of_build {doc : Document} {decls : Declarations}
    (h : build doc = .ok decls) (sec : Section) :
    ListsExactly (decls.names sec) (· ∈ doc.names sec) := by
  change ListsExactly (decls.table sec).keys (· ∈ doc.names sec)
  unfold Document.names
  cases hcomponents : doc.components with
  | none =>
    rw [table_eq_nil_of_build h hcomponents sec]
    exact listsExactly_nil fun _ => List.not_mem_nil
  | some components =>
    have hfrom := sectionsFrom_of_build h hcomponents
    have hcompiled : ∀ {α : Type} {kind : ComponentKind α} {compile},
        kind.CompiledBy doc compile →
          ListsExactly (decls.table kind.sec).keys (· ∈ (kind.entries components).keys) :=
      fun hkind => Table.listsExactly_of_forall₂ (fun _ _ hstored => hstored.1)
        (hfrom.compiled hkind)
    cases sec with
    | schemas =>
      rw [hfrom.schemas]
      exact Table.listsExactly_keys_sorted components.schemas
    | responses => exact hcompiled .response
    | requestBodies => exact hcompiled .requestBody
    | parameters => exact hcompiled .parameter
    | headers => exact hcompiled .header
    | securitySchemes => exact hcompiled .securityScheme
    | pathItems => exact listsExactly_nil fun _ => List.not_mem_nil

end OpenApiTypings
