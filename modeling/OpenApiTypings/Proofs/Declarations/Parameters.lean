import OpenApiTypings.Proofs.Declarations.Complete
import OpenApiTypings.Proofs.Declarations.Resolution

/-!
# Parameters of an item and of its operations

An operation has the parameters of its item and its own, and they are told apart by name and
location.  Three overridings meet here: within the list of the item, within the list of the
operation, and of the first list by the second one.  In each of them the later parameter counts,
so the entry of a name and a location is that of the last parameter of the operation that has
them, or else of the last one of the item.

The name and the location are those of the parameter that a reference leads to, but the type of
a reference is its look-up.
-/

namespace OpenApiTypings

/-! ### Keys of parameters -/

/-- What tells the parameter apart from the others of its operation. -/
def Parameter.key (parameter : Parameter) : ParameterKey :=
  ⟨parameter.name, parameter.location⟩

namespace ParameterKey

theorem lt_iff {a b : ParameterKey} :
    a < b ↔ a.name < b.name ∨ a.name = b.name ∧ a.location < b.location := Iff.rfl

instance : Std.Irrefl (· < · : ParameterKey → ParameterKey → Prop) where
  irrefl a h := by
    rcases lt_iff.mp h with hname | ⟨-, hlocation⟩
    · exact String.lt_irrefl _ hname
    · exact String.lt_irrefl _ hlocation

instance : IsTrans ParameterKey (· < ·) where
  trans a b c hab hbc := by
    rw [lt_iff] at hab hbc ⊢
    rcases hab with hab | ⟨hname, hab⟩
    · rcases hbc with hbc | ⟨hname', -⟩
      · exact .inl (String.lt_trans hab hbc)
      · exact .inl (hname' ▸ hab)
    · rcases hbc with hbc | ⟨hname', hbc⟩
      · exact .inl (hname ▸ hbc)
      · exact .inr ⟨hname.trans hname', String.lt_trans hab hbc⟩

instance : Std.Trichotomous (· < · : ParameterKey → ParameterKey → Prop) where
  trichotomous a b hab hba := by
    rw [lt_iff, not_or, not_and] at hab hba
    have hname : a.name = b.name := Std.Trichotomous.trichotomous _ _ hab.1 hba.1
    have hlocation : a.location = b.location :=
      Std.Trichotomous.trichotomous _ _ (hab.2 hname) (hba.2 hname.symm)
    obtain ⟨name, location⟩ := a
    cases hname
    cases hlocation
    rfl

end ParameterKey

/-! ### What an operation has under a key -/

namespace Document

/-- The slot leads to a parameter with this name and location. -/
def LeadsToKey (doc : Document) (key : ParameterKey) (slot : RefOr Parameter) : Prop :=
  ∃ parameter, resolve .parameter doc slot = .ok parameter ∧ parameter.key = key

/-- The slot is the last one of the operation that leads to a parameter with the key, or else,
if the operation has none, the last one of its item. -/
def Provides (doc : Document) (item : PathItem) (op : Operation) (key : ParameterKey)
    (slot : RefOr Parameter) : Prop :=
  LastWith (doc.LeadsToKey key) op.parameters slot ∨
    (∀ own ∈ op.parameters, ¬ doc.LeadsToKey key own) ∧
      LastWith (doc.LeadsToKey key) item.parameters slot

/-- The text of a parameter's type: the look-up of a reference, or the type of the parameter in
place, compiled under its name. -/
def parameterText (doc : Document) (registry : Registry) (slot : RefOr Parameter)
    (parameter : Parameter) : String :=
  ((lookupOr .parameter slot (parameter.compile doc parameter.name)).run registry).value.render

/-- The slot leads to a parameter with the key, and this is its type.  It must be given if its
declaration says so, and always in a path. -/
def HasType (doc : Document) (registry : Registry) (key : ParameterKey)
    (slot : RefOr Parameter) (type : ParameterType) : Prop :=
  ∃ parameter, resolve .parameter doc slot = .ok parameter ∧ parameter.key = key ∧
    type.type = doc.parameterText registry slot parameter ∧
    (type.required ↔ parameter.required ∨ key.location = "path")

end Document

/-- The groups in which the parameters of an operation are declared, by their location. -/
def OperationTypes.groups (types : OperationTypes) : Table (Table ParameterType) :=
  [("path", types.path), ("query", types.query), ("header", types.header),
    ("cookie", types.cookie)]

theorem OperationTypes.keys_groups (types : OperationTypes) :
    types.groups.keys = knownLocations := rfl

/-- The groups of the operation hold its parameters and those of its item. -/
structure OperationTypes.Merges (types : OperationTypes) (doc : Document) (registry : Registry)
    (item : PathItem) (op : Operation) : Prop where
  listed : ∀ group ∈ types.groups, ListsExactly group.2.keys fun name =>
    ∃ slot ∈ item.parameters ++ op.parameters, doc.LeadsToKey ⟨name, group.1⟩ slot
  provided : ∀ group ∈ types.groups, ∀ entry ∈ group.2, ∃ slot,
    doc.Provides item op ⟨entry.1, group.1⟩ slot ∧
      doc.HasType registry ⟨entry.1, group.1⟩ slot entry.2
  /-- A parameter in none of the known locations has no entry. -/
  dropped : ∀ slot parameter, resolve .parameter doc slot = .ok parameter →
    parameter.location ∉ knownLocations →
      ∀ group ∈ types.groups, ∀ entry ∈ group.2, ¬ doc.Provides item op ⟨entry.1, group.1⟩ slot
  /-- One name in two locations has two entries, from two parameters. -/
  apart : ∀ group ∈ types.groups, ∀ other ∈ types.groups, group.1 ≠ other.1 →
    ∀ name ∈ group.2.keys, name ∈ other.2.keys → ∃ slot slot' type type',
      slot ≠ slot' ∧ (name, type) ∈ group.2 ∧ (name, type') ∈ other.2 ∧
        doc.Provides item op ⟨name, group.1⟩ slot ∧
        doc.HasType registry ⟨name, group.1⟩ slot type ∧
        doc.Provides item op ⟨name, other.1⟩ slot' ∧
        doc.HasType registry ⟨name, other.1⟩ slot' type'

/-- The types are those of items that the slots lead to, with their parameters merged. -/
def MergesItems (doc : Document) (registry : Registry) (compiled : Table ItemTypes)
    (items : Table (RefOr PathItem)) : Prop :=
  ∀ entry ∈ compiled, ∃ slot item, (entry.1, slot) ∈ Table.sorted items ∧
    resolve .pathItem doc slot = .ok item ∧
      ∀ stored ∈ entry.2, ∃ op, item.operation? stored.1 = some op ∧
        stored.2.Merges doc registry item op

/-! ### Lists of parameters -/

section Lists

variable {doc : Document} {registry : Registry}

theorem Document.LeadsToKey.unique {key key' : ParameterKey} {slot : RefOr Parameter}
    (h : doc.LeadsToKey key slot) (h' : doc.LeadsToKey key' slot) : key = key' := by
  obtain ⟨parameter, hresolve, rfl⟩ := h
  obtain ⟨parameter', hresolve', rfl⟩ := h'
  cases hresolve.symm.trans hresolve'
  rfl

theorem Document.HasType.leadsToKey {key : ParameterKey} {slot : RefOr Parameter}
    {type : ParameterType} (h : doc.HasType registry key slot type) : doc.LeadsToKey key slot := by
  obtain ⟨parameter, hresolve, hkey, -⟩ := h
  exact ⟨parameter, hresolve, hkey⟩

theorem Document.Provides.leadsToKey {item : PathItem} {op : Operation} {key : ParameterKey}
    {slot : RefOr Parameter} (h : doc.Provides item op key slot) : doc.LeadsToKey key slot := by
  rcases h with hown | ⟨-, hshared⟩
  · exact hown.1
  · exact hshared.1

/-- The table has an entry for each slot, and of those with the same key the last one. -/
def TableFor (doc : Document) (registry : Registry) (slots : List (RefOr Parameter))
    (table : ParameterTable) : Prop :=
  ∃ entries : ParameterTable,
    List.Forall₂ (fun slot entry => doc.HasType registry entry.1 slot entry.2) slots entries ∧
      table = Table.sorted entries

namespace TableFor

variable {slots : List (RefOr Parameter)} {table : ParameterTable}

theorem mem_keys (h : TableFor doc registry slots table) {key : ParameterKey} :
    key ∈ table.map Prod.fst ↔ ∃ slot ∈ slots, doc.LeadsToKey key slot := by
  obtain ⟨entries, hentries, rfl⟩ := h
  rw [Table.mem_keys_sorted, List.mem_map]
  constructor
  · rintro ⟨entry, hentry, rfl⟩
    obtain ⟨slot, hslot, htype⟩ := exists_left_of_mem hentries hentry
    exact ⟨slot, hslot, htype.leadsToKey⟩
  · rintro ⟨slot, hslot, hleads⟩
    obtain ⟨entry, hentry, htype⟩ := exists_right_of_mem hentries hslot
    exact ⟨entry, hentry, htype.leadsToKey.unique hleads⟩

theorem exists_last (h : TableFor doc registry slots table)
    {entry : ParameterKey × ParameterType} (hentry : entry ∈ table) :
    ∃ slot, LastWith (doc.LeadsToKey entry.1) slots slot ∧
      doc.HasType registry entry.1 slot entry.2 := by
  obtain ⟨entries, hentries, rfl⟩ := h
  obtain ⟨slot, htype, hlast⟩ := LastWith.exists_left hentries (p := doc.LeadsToKey entry.1)
    (fun slot other htype => ⟨fun hleads => htype.leadsToKey.unique hleads,
      fun hkey => hkey ▸ htype.leadsToKey⟩) (Table.mem_sorted_iff.mp hentry)
  exact ⟨slot, hlast, htype⟩

end TableFor

/-- The tables of an item and of its operation, put together. -/
theorem exists_provides_of_mem {item : PathItem} {op : Operation} {shared own : ParameterTable}
    (hshared : TableFor doc registry item.parameters shared)
    (hown : TableFor doc registry op.parameters own) {entry : ParameterKey × ParameterType}
    (hentry : entry ∈ Table.sorted (shared ++ own)) :
    ∃ slot, doc.Provides item op entry.1 slot ∧ doc.HasType registry entry.1 slot entry.2 := by
  -- the entries of the operation stand behind those of the item
  rcases LastWith.append_iff.mp (Table.mem_sorted_iff.mp hentry) with hlast | ⟨hnone, hlast⟩
  · obtain ⟨slot, hslot, htype⟩ := hown.exists_last hlast.mem
    exact ⟨slot, .inl hslot, htype⟩
  · obtain ⟨slot, hslot, htype⟩ := hshared.exists_last hlast.mem
    refine ⟨slot, .inr ⟨fun other hother hleads => ?_, hslot⟩, htype⟩
    obtain ⟨entry', hentry', hkey⟩ := List.mem_map.mp (hown.mem_keys.mpr ⟨other, hother, hleads⟩)
    exact hnone entry' hentry' hkey

theorem mem_keys_merged {item : PathItem} {op : Operation} {shared own : ParameterTable}
    (hshared : TableFor doc registry item.parameters shared)
    (hown : TableFor doc registry op.parameters own) {key : ParameterKey} :
    key ∈ (Table.sorted (shared ++ own)).map Prod.fst ↔
      ∃ slot ∈ item.parameters ++ op.parameters, doc.LeadsToKey key slot := by
  rw [Table.mem_keys_sorted, List.map_append, List.mem_append, hshared.mem_keys, hown.mem_keys]
  simp only [List.mem_append, or_and_right, exists_or]

end Lists

/-! ### Groups -/

theorem nodup_keys_parametersIn {parameters : ParameterTable}
    (hkeys : (parameters.map Prod.fst).Nodup) (location : String) :
    (parametersIn parameters location).keys.Nodup := by
  unfold Table.keys parametersIn
  rw [List.Nodup, List.pairwise_map] at hkeys ⊢
  refine List.pairwise_filterMap.mpr (hkeys.imp ?_)
  rintro ⟨⟨name, _⟩, type⟩ ⟨⟨name', _⟩, type'⟩ hne entry hentry entry' hentry' heq
  simp only [Option.ite_none_right_eq_some, Option.some.injEq] at hentry hentry'
  obtain ⟨rfl, rfl⟩ := hentry
  obtain ⟨rfl, rfl⟩ := hentry'
  cases heq
  exact hne rfl

theorem mem_keys_parametersIn {parameters : ParameterTable} {location name : String} :
    name ∈ (parametersIn parameters location).keys ↔
      ⟨name, location⟩ ∈ parameters.map Prod.fst := by
  constructor
  · intro hname
    obtain ⟨entry, hentry, rfl⟩ := List.mem_map.mp hname
    exact List.mem_map.mpr ⟨_, mem_parametersIn.mp hentry, rfl⟩
  · intro hkey
    obtain ⟨⟨key, type⟩, hentry, rfl⟩ := List.mem_map.mp hkey
    exact List.mem_map.mpr ⟨(name, type), mem_parametersIn.mpr hentry, rfl⟩

/-- Groups that hold the last parameters under their keys. -/
theorem OperationTypes.Merges.of_tables {doc : Document} {registry : Registry} {item : PathItem}
    {op : Operation} {shared own : ParameterTable}
    (hshared : TableFor doc registry item.parameters shared)
    (hown : TableFor doc registry op.parameters own) {types : OperationTypes}
    (hgroups : ∀ group ∈ types.groups,
      group.2 = parametersIn (Table.sorted (shared ++ own)) group.1) :
    types.Merges doc registry item op := by
  have hprovided : ∀ group ∈ types.groups, ∀ entry ∈ group.2, ∃ slot,
      doc.Provides item op ⟨entry.1, group.1⟩ slot ∧
        doc.HasType registry ⟨entry.1, group.1⟩ slot entry.2 := by
    intro group hgroup entry hentry
    rw [hgroups group hgroup] at hentry
    exact exists_provides_of_mem hshared hown (mem_parametersIn.mp hentry)
  refine ⟨fun group hgroup => ?_, hprovided, ?_, ?_⟩
  · rw [hgroups group hgroup]
    refine ⟨nodup_keys_parametersIn (Table.nodup_keys_sorted _) _, fun name => ?_⟩
    rw [mem_keys_parametersIn, mem_keys_merged hshared hown]
  · intro slot parameter hresolve hunknown group hgroup entry hentry hprovides
    have hkey := hprovides.leadsToKey.unique ⟨parameter, hresolve, rfl⟩
    have hlocation : group.1 = parameter.location := congrArg ParameterKey.location hkey
    have hknown : group.1 ∈ knownLocations :=
      types.keys_groups ▸ List.mem_map_of_mem (f := Prod.fst) hgroup
    exact hunknown (hlocation ▸ hknown)
  · intro group hgroup other hother hne name hname hname'
    obtain ⟨⟨_, type⟩, hentry, rfl⟩ := List.mem_map.mp hname
    obtain ⟨⟨_, type'⟩, hentry', rfl⟩ := List.mem_map.mp hname'
    obtain ⟨slot, hslot, htype⟩ := hprovided group hgroup _ hentry
    obtain ⟨slot', hslot', htype'⟩ := hprovided other hother _ hentry'
    refine ⟨slot, slot', type, type', ?_, hentry, hentry', hslot, htype, hslot', htype'⟩
    rintro rfl
    exact hne (congrArg ParameterKey.location (htype.leadsToKey.unique htype'.leadsToKey))

/-! ### What the builder makes -/

section Compiled

variable (doc : Document)

theorem compileParameters_tableFor (slots : List (RefOr Parameter)) :
    Build.Ensures (compileParameters doc slots) fun registry =>
      TableFor doc registry slots := by
  unfold compileParameters
  refine Build.Ensures.last (.mapM (Q := fun slot registry
    (entry : ParameterKey × ParameterType) => doc.HasType registry entry.1 slot entry.2) ?_)
    fun _ entries hentries => ⟨entries, hentries, rfl⟩
  intro slot _
  refine Build.Ensures.assume (.ofResolved _) fun parameter hresolve => ?_
  obtain ⟨calls, hcalls⟩ := lookupOr_makes .parameter slot (schemaOrContentType_makes doc
    parameter.schema parameter.content parameter.name .input)
  refine .last (.ofCompilation hcalls.ensures_value) ?_
  rintro registry _ rfl
  exact ⟨parameter, hresolve, rfl, rfl, by simp⟩

theorem compileOperation_merges (item : PathItem) (shared : ParameterTable) (method : Method)
    (op : Operation) :
    Build.Ensures (compileOperation doc item shared method op) fun registry types =>
      TableFor doc registry item.parameters shared → types.Merges doc registry item op := by
  unfold compileOperation
  refine Build.Ensures.bind (.inside _ (compileParameters_tableFor doc op.parameters))
    fun own => ?_
  refine .bind (.ofCompilation (noteDropped_makes _).ensures) fun _ => ?_
  refine .bind (.inside _ (compileRequestBody_declares doc method op)) fun requestBody => ?_
  refine .last (.inside _ (compileResponses_declares doc method op)) ?_
  intro registry responses _ _ _ hown hshared
  refine .of_tables hshared hown fun group hgroup => ?_
  simp only [OperationTypes.groups, List.mem_cons, List.not_mem_nil, or_false] at hgroup
  rcases hgroup with rfl | rfl | rfl | rfl <;> rfl

theorem compileItem_merges (item : PathItem) :
    Build.Ensures (compileItem doc item) fun registry types =>
      ∀ stored ∈ types, ∃ op, item.operation? stored.1 = some op ∧
        stored.2.Merges doc registry item op := by
  unfold compileItem
  refine Build.Ensures.bind (compileParameters_tableFor doc item.parameters) fun shared => ?_
  refine (Build.Ensures.mapM_mem (R := fun registry (stored : Method × OperationTypes) =>
    ∃ op, item.operation? stored.1 = some op ∧
      (TableFor doc registry item.parameters shared →
        stored.2.Merges doc registry item op)) ?_).mono ?_
  · rintro ⟨method, op⟩ hop
    refine .last (compileOperation_merges doc item shared method op) fun _ _ htypes => ?_
    exact ⟨op, PathItem.mem_operations.mp hop, htypes⟩
  · intro _ types htypes hshared stored hstored
    obtain ⟨op, hop, hmerges⟩ := htypes stored hstored
    exact ⟨op, hop, hmerges hshared⟩

theorem compileDocument_merges :
    Build.Ensures (compileDocument doc) fun registry decls =>
      MergesItems doc registry decls.paths doc.paths ∧
        MergesItems doc registry decls.webhooks doc.webhooks := by
  have hitems : ∀ label items, Build.Ensures (compileItems doc label items) fun registry compiled =>
      MergesItems doc registry compiled items :=
    compileItems_ensures doc (compileItem_merges doc)
  unfold compileDocument
  refine Build.Ensures.bind (compileComponents_stores doc (T := fun _ _ => True)
    fun _ hm => hm.ensures) fun components => ?_
  refine .bind (hitems "path" doc.paths) fun paths => ?_
  refine .last (hitems "webhook" doc.webhooks) ?_
  exact fun _ _ hwebhooks hpaths _ => ⟨hpaths, hwebhooks⟩

end Compiled

/-- Every operation that a build declares has the parameters of its item and its own, each under
its name in the group of its location.  Where several have the same name and location, the entry
is that of the last one of the operation, or else of the last one of the item. -/
theorem build_parameters {doc : Document} {decls : Declarations} (h : build doc = .ok decls) :
    MergesItems doc ⟨decls.enums⟩ decls.paths doc.paths ∧
      MergesItems doc ⟨decls.enums⟩ decls.webhooks doc.webhooks := by
  obtain ⟨stored, heq, hmerges, -⟩ := exists_of_build h (compileDocument_merges doc)
  rw [heq]
  exact hmerges

/-- A document with an operation that overrides a parameter of its item and has another one of
the same name in another location. -/
def searchDocument : Document where
  components := some {
    parameters := [("Limit", .inline { name := "limit", location := "query" })] }
  paths := [("/search/{id}", .inline {
    parameters := [
      .inline { name := "id", location := "path" },
      .inline { name := "limit", location := "query", required := true },
      .inline { name := "limit", location := "header" },
      .inline { name := "limit", location := "body" }]
    get := some { parameters := [
      .inline { name := "limit", location := "query", required := true },
      .reference "#/components/parameters/Limit"] } })]

/-- What is declared for the document. -/
def searchDeclarations : Declarations where
  parameters := [("Limit", "unknown")]
  paths := [("/search/{id}", [(.get, {
    path := [("id", ⟨"unknown", true⟩)]
    query := [("limit", ⟨"Components[\"parameters\"][\"Limit\"]", false⟩)]
    header := [("limit", ⟨"unknown", false⟩)] })])]

theorem build_parameters_search :
    build searchDocument = .ok searchDeclarations ∧
      MergesItems searchDocument ⟨[]⟩ searchDeclarations.paths searchDocument.paths := by
  have hbuild : build searchDocument = .ok searchDeclarations := rfl
  exact ⟨hbuild, (build_parameters hbuild).1⟩

end OpenApiTypings
