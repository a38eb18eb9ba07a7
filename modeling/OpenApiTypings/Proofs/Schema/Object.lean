import OpenApiTypings.Proofs.Schema.Values

/-!
# Object schemas

The types of the schemas nested in an object node are sound by assumption.  From that
every part of the object's type has all objects that meet the node: its fields, its
record of further properties, and its requirements between properties.
-/

namespace OpenApiTypings.Schema

open TypeExpr

/-- The type has all values that a schema admits. -/
def Covers (lookups : Section → String → Json → Prop) (schema : Json) (registry : Registry)
    (type : TypeExpr) : Prop :=
  ∀ v, Admits .inferred schema v → type.Denotes lookups registry v

/-- Plain nested schemas are compiled to types that have all their values. -/
def SoundChild (lookups : Section → String → Json → Prop) (child : Child) : Prop :=
  ∀ scope schema, Plain schema → (child scope schema).Ensures (Covers lookups schema)

/-! ### Parts of plain schemas -/

namespace Plain

variable {node : Node} (hplain : Plain (.object node.entries))
include hplain

theorem flat : node.Flat := by
  cases hplain with
  | scalar hscalar => cases hscalar
  | node hflat => exact hflat

theorem branches {keyword : String} (hkeyword : keyword ∈ ["oneOf", "anyOf", "allOf"])
    {branches : List Json} (hlist : node.list? keyword = some branches) {branch : Json}
    (hbranch : branch ∈ branches) : Plain branch := by
  cases hplain with
  | scalar hscalar => cases hscalar
  | node _ hbranches => exact hbranches keyword hkeyword branches hlist branch hbranch

theorem items {items : Json} (hitems : node.items? = some items) : Plain items := by
  cases hplain with
  | scalar hscalar => cases hscalar
  | node _ _ hplainItems => exact hplainItems items hitems

theorem properties {entry : String × Json} (hentry : entry ∈ node.properties?.getD []) :
    Plain entry.2 := by
  cases hplain with
  | scalar hscalar => cases hscalar
  | node _ _ _ hproperties => exact hproperties entry hentry

theorem additional {schema : Json} (hschema : node.additionalProperties? = some schema) :
    Plain schema := by
  cases hplain with
  | scalar hscalar => cases hscalar
  | node _ _ _ _ hadditional => exact hadditional schema hschema

end Plain

section Layer

variable {lookups : Section → String → Json → Prop} {child : Child} {node : Node}

/-- The type has all objects that meet the node. -/
def ObjectCovers (lookups : Section → String → Json → Prop) (node : Node)
    (registry : Registry) (type : TypeExpr) : Prop :=
  ∀ v, node.Meets .inferred v → v.IsObject → type.Denotes lookups registry v

/-- The type has the value that a key has in any object that meets the node. -/
def KeyCovers (lookups : Section → String → Json → Prop) (node : Node) (key : String)
    (registry : Registry) (type : TypeExpr) : Prop :=
  ∀ v, node.Meets .inferred v → ∀ x, v.field? key = some x →
    type.Denotes lookups registry x

theorem objectCovers_intersection {registry : Registry} {parts : List TypeExpr}
    (h : ∀ part ∈ parts, ObjectCovers lookups node registry part) :
    ObjectCovers lookups node registry (.intersection parts) := by
  intro v hmeets hobject
  exact denotes_intersection.mpr fun part hpart => h part hpart v hmeets hobject

section Children

variable (hchild : SoundChild lookups child) (hplain : Plain (.object node.entries))
include hchild hplain

/-! ### Further properties -/

/-- What the rules for further properties say of the objects that meet the node. -/
structure ExtraCovers (lookups : Section → String → Json → Prop) (node : Node)
    (registry : Registry) (extra : ExtraProperties) : Prop where
  patterns : extra.patterns = []
  additional : ∀ type, extra.additional = some type →
    ∀ key, KeyCovers lookups node key registry type
  closed : extra.closed = true →
    ∀ v, node.Meets .inferred v → ∀ key x, v.field? key ≠ some x

omit hchild in
theorem compilePatterns_eq (scope : Scope) : compilePatterns child node scope = pure [] := by
  rw [compilePatterns, hplain.flat.patterns]
  rfl

theorem compileExtra_ensures (scope : Scope) :
    (compileExtra child node scope).Ensures (ExtraCovers lookups node) := by
  unfold compileExtra
  rw [compilePatterns_eq hplain, pure_bind]
  have hundeclared : ∀ schema, node.additionalProperties? = some schema →
      ∀ v, node.Meets .inferred v → ∀ key x, v.field? key = some x →
        Admits .inferred schema x := by
    intro schema hschema v hmeets key x hx
    have hnone : node.properties?.getD [] = [] :=
      hplain.flat.additional (by rw [hschema]; rfl)
    apply hmeets.additional schema hschema key x hx
    rw [hnone]
    exact List.not_mem_nil
  split
  · refine Compilation.Ensures.pure fun registry => ⟨rfl, ?_, ?_⟩
    · intro type htype key v _ x _
      cases htype
      exact trivial
    · rintro ⟨⟩
  · rename_i hfalse
    refine Compilation.Ensures.pure fun registry => ⟨rfl, ?_, ?_⟩
    · rintro type ⟨⟩
    · intro _ v hmeets key x hx
      have hadmits := hundeclared _ hfalse v hmeets key x hx
      rw [Admits] at hadmits
      cases hadmits
  · rename_i fields hfields
    refine Compilation.Ensures.bind (hchild _ _ (hplain.additional hfields)) fun type => ?_
    refine Compilation.Ensures.pure fun registry htype => ⟨rfl, ?_, ?_⟩
    · intro type' htype' key v hmeets x hx
      cases htype'
      exact htype x (hundeclared _ hfields v hmeets key x hx)
    · rintro ⟨⟩
  · refine Compilation.Ensures.pure fun registry => ⟨rfl, ?_, ?_⟩
    · rintro type ⟨⟩
    · rintro ⟨⟩

omit hchild hplain in
theorem ExtraCovers.record {registry : Registry} {extra : ExtraProperties}
    (h : ExtraCovers lookups node registry extra) {type : TypeExpr}
    (htype : extra.type? = some type) :
    (∃ value, type = .record value) ∧ ObjectCovers lookups node registry type := by
  have hpatterns : extra.patternType? = none := by
    rw [ExtraProperties.patternType?, h.patterns]
    rfl
  unfold ExtraProperties.type? at htype
  rw [hpatterns] at htype
  cases hadditional : extra.additional with
  | none =>
    rw [hadditional] at htype
    cases htype
  | some value =>
    rw [hadditional] at htype
    cases htype
    refine ⟨⟨value, rfl⟩, ?_⟩
    intro v hmeets hobject
    exact ⟨hobject, fun key x hx => h.additional value hadditional key v hmeets x hx⟩

/-! ### Requirements between properties -/

theorem propertyType_ensures (name : String) (scope : Scope) :
    (propertyType child (node.properties?.getD []) name scope).Ensures
      (KeyCovers lookups node name) := by
  unfold propertyType
  cases hschema : (node.properties?.getD []).get? name with
  | none => exact Compilation.Ensures.pure fun _ _ _ _ _ => trivial
  | some schema =>
    have hentry := Table.mem_of_get? hschema
    refine (hchild _ schema (hplain.properties hentry)).mono ?_
    intro registry type htype v hmeets x hx
    exact htype x (hmeets.properties (name, schema) hentry x hx)

omit hchild hplain in
theorem mem_distinctNames {name : String} {names : List String} :
    name ∈ distinctNames names ↔ name ∈ names := by
  unfold distinctNames Table.keys
  rw [Table.mem_keys_sorted]
  simp

/-- The fields for the names that a key brings with it. -/
theorem dependents_ensures (names : List String) (scope : Scope) :
    (names.mapM fun name => do
        return Field.required name
          (← propertyType child (node.properties?.getD []) name scope)).Ensures
      fun registry fields => ∀ f ∈ fields, f.name ∈ names ∧
        KeyCovers lookups node f.name registry f.type := by
  have hmapM : (names.mapM fun name => do
        return Field.required name
          (← propertyType child (node.properties?.getD []) name scope)).Ensures
      fun registry fields => List.Forall₂ (fun name (f : Field TypeExpr) =>
        f.name = name ∧ KeyCovers lookups node name registry f.type) names fields := by
    refine Compilation.Ensures.mapM fun name _ => ?_
    refine Compilation.Ensures.bind (propertyType_ensures hchild hplain name scope) ?_
    exact fun type => Compilation.Ensures.pure fun _ htype => ⟨rfl, htype⟩
  refine hmapM.mono fun registry fields hfields f hf => ?_
  obtain ⟨name, hname, rfl, htype⟩ := exists_left_of_mem hfields hf
  exact ⟨hname, htype⟩

theorem compileDependency_ensures (scope : Scope) {key : String} {items : List Json}
    (hentry : (key, Json.array items) ∈ node.dependentRequired?.getD []) :
    (compileDependency child (node.properties?.getD []) (distinctNames node.required) scope
        key (items.filterMap Json.string?)).Ensures
      fun registry constraint? => ∀ type, constraint? = some type →
        ObjectCovers lookups node registry type := by
  unfold compileDependency
  refine Compilation.Ensures.bind (dependents_ensures hchild hplain _ scope) ?_
  intro dependents
  split
  · exact Compilation.Ensures.pure fun _ _ => nofun
  refine Compilation.Ensures.bind (propertyType_ensures hchild hplain key scope) ?_
  intro keyType
  have hpresent : ∀ registry, KeyCovers lookups node key registry keyType →
      (∀ f ∈ dependents, f.name ∈ items.filterMap Json.string? ∧
        KeyCovers lookups node f.name registry f.type) →
      ∀ v, node.Meets .inferred v → v.IsObject → (∃ x, v.field? key = some x) →
        (objectOf (Field.required key keyType :: dependents)).Denotes lookups registry v := by
    intro registry hkey hdependents v hmeets hobject hx
    refine denotes_objectOf.mpr ⟨hobject, ?_⟩
    intro f hf
    rcases List.mem_cons.mp hf with rfl | hrest
    · exact ⟨fun _ => hx, hkey v hmeets⟩
    · obtain ⟨hname, htype⟩ := hdependents f hrest
      exact ⟨fun _ => hmeets.asserts.dependent key items hentry hx f.name hname, htype v hmeets⟩
  split
  · rename_i hrequired
    refine Compilation.Ensures.pure fun registry hkey hdependents type htype => ?_
    cases htype
    intro v hmeets hobject
    have hname := mem_distinctNames.mp (List.contains_iff_mem.mp hrequired)
    exact hpresent registry hkey hdependents v hmeets hobject
      (hmeets.asserts.required hobject key hname)
  · refine Compilation.Ensures.pure fun registry hkey hdependents type htype => ?_
    cases htype
    intro v hmeets hobject
    cases hx : v.field? key with
    | none =>
      refine denotes_union.mpr ⟨_, List.mem_cons_self .., denotes_objectOf.mpr ⟨hobject, ?_⟩⟩
      intro f hf
      obtain rfl := List.mem_singleton.mp hf
      refine ⟨nofun, fun x hfield => ?_⟩
      have hnone : v.field? key = some x := hfield
      rw [hx] at hnone
      cases hnone
    | some x =>
      refine denotes_union.mpr ⟨_, List.mem_cons_of_mem _ (List.mem_singleton.mpr rfl), ?_⟩
      exact hpresent registry hkey hdependents v hmeets hobject ⟨x, hx⟩

theorem compileDependencies_ensures (scope : Scope) :
    (compileDependencies child node (node.properties?.getD []) (distinctNames node.required)
        scope).Ensures
      fun registry constraints => ∀ type ∈ constraints,
        ObjectCovers lookups node registry type := by
  unfold compileDependencies
  refine Compilation.Ensures.bind
    (Q := fun registry constraints => List.Forall₂
      (fun (_ : String × Json) (constraint? : Option TypeExpr) => ∀ type,
        constraint? = some type → ObjectCovers lookups node registry type)
      (Table.sorted (node.dependentRequired?.getD [])) constraints) ?_ ?_
  · refine Compilation.Ensures.mapM fun entry hentry => ?_
    obtain ⟨key, names⟩ := entry
    have hlisted := Table.mem_of_mem_sorted hentry
    cases names with
    | array items => exact compileDependency_ensures hchild hplain scope hlisted
    | _ => exact Compilation.Ensures.pure fun _ => nofun
  · intro constraints
    refine Compilation.Ensures.pure fun registry hconstraints type htype => ?_
    obtain ⟨constraint?, hmem, hsome⟩ := List.mem_filterMap.mp htype
    obtain ⟨-, -, hcovers⟩ := exists_left_of_mem hconstraints hmem
    exact hcovers type hsome

/-! ### Objects -/

theorem compileFields_ensures (scope : Scope) :
    (compileFields child (node.properties?.getD []) (distinctNames node.required)
        scope).Ensures
      fun registry fields => ObjectCovers lookups node registry (objectOf fields) := by
  unfold compileFields
  refine (Compilation.Ensures.mapM (Q := fun entry registry (f : Field TypeExpr) =>
    f.name = entry.1 ∧ f.optional = !(distinctNames node.required).contains entry.1 ∧
      KeyCovers lookups node entry.1 registry f.type) ?_).mono ?_
  · intro entry hentry
    have hlisted := Table.mem_of_mem_sorted (List.mem_filter.mp hentry).1
    refine Compilation.Ensures.bind (hchild _ _ (hplain.properties hlisted)) fun type => ?_
    refine Compilation.Ensures.pure fun registry htype => ⟨rfl, rfl, ?_⟩
    intro v hmeets x hx
    exact htype x (hmeets.properties entry hlisted x hx)
  · intro registry fields hfields v hmeets hobject
    refine denotes_objectOf.mpr ⟨hobject, fun f hf => ?_⟩
    obtain ⟨entry, -, hname, hoptional, htype⟩ := exists_left_of_mem hfields hf
    rw [hname]
    refine ⟨fun hrequired => ?_, htype v hmeets⟩
    rw [hoptional, Bool.not_eq_false'] at hrequired
    have hmem := mem_distinctNames.mp (List.contains_iff_mem.mp hrequired)
    exact hmeets.asserts.required hobject entry.1 hmem

/-- The type of an object is written with one of three outermost forms. -/
def ObjectForm : TypeExpr → Prop
  | .object _ | .record _ | .intersection _ => True
  | _ => False

omit hchild hplain in
theorem undeclaredObject_covers {registry : Registry} {extra : ExtraProperties}
    (hextra : ExtraCovers lookups node registry extra) :
    ObjectForm (undeclaredObject (distinctNames node.required) extra) ∧
      ObjectCovers lookups node registry
        (undeclaredObject (distinctNames node.required) extra) := by
  have hbase : ObjectCovers lookups node registry (objectOf
      ((distinctNames node.required).map fun name => Field.required name .unknown)) := by
    intro v hmeets hobject
    refine denotes_objectOf.mpr ⟨hobject, fun f hf => ?_⟩
    obtain ⟨name, hname, rfl⟩ := List.mem_map.mp hf
    exact ⟨fun _ => hmeets.asserts.required hobject name (mem_distinctNames.mp hname),
      fun _ _ => trivial⟩
  unfold undeclaredObject
  cases htype : extra.type? with
  | some type =>
    obtain ⟨⟨value, rfl⟩, hcovers⟩ := hextra.record htype
    split
    · exact ⟨trivial, hcovers⟩
    · refine ⟨trivial, objectCovers_intersection fun part hpart => ?_⟩
      rcases List.mem_cons.mp hpart with rfl | hrest
      · exact hbase
      · exact List.mem_singleton.mp hrest ▸ hcovers
  | none =>
    split
    · refine ⟨trivial, fun v hmeets hobject => ⟨hobject, fun key x hx => ?_⟩⟩
      cases hclosed : extra.closed with
      | true => exact absurd hx (hextra.closed hclosed v hmeets key x)
      | false => exact trivial
    · exact ⟨trivial, hbase⟩

theorem compileObject_ensures (scope : Scope) :
    (compileObject child node scope).Ensures fun registry type =>
      ObjectForm type ∧ ObjectCovers lookups node registry type := by
  unfold compileObject
  refine Compilation.Ensures.bind (compileDependencies_ensures hchild hplain scope) ?_
  intro constraints
  refine Compilation.Ensures.bind (compileExtra_ensures hchild hplain scope) ?_
  intro extra
  split
  · exact Compilation.Ensures.pure fun registry hextra _ => undeclaredObject_covers hextra
  refine Compilation.Ensures.bind (compileFields_ensures hchild hplain scope) ?_
  intro fields
  rw [hplain.flat.condition]
  refine Compilation.Ensures.pure fun registry hfields hextra hconstraints => ?_
  -- the fields, and the record of further properties laid over them
  have hextended : ObjectForm (extendedType fields extra) ∧
      ObjectCovers lookups node registry (extendedType fields extra) := by
    unfold extendedType
    cases htype : extra.type? with
    | none => exact ⟨trivial, hfields⟩
    | some type =>
      refine ⟨trivial, objectCovers_intersection fun part hpart => ?_⟩
      rcases List.mem_cons.mp hpart with rfl | hrest
      · exact hfields
      · exact List.mem_singleton.mp hrest ▸ (hextra.record htype).2
  obtain ⟨hform, hcovers⟩ := hextended
  split
  · exact ⟨hform, hcovers⟩
  · refine ⟨trivial, objectCovers_intersection fun part hpart => ?_⟩
    rcases List.mem_cons.mp hpart with rfl | hrest
    · exact hcovers
    · exact hconstraints part hrest

end Children

end Layer

end OpenApiTypings.Schema
