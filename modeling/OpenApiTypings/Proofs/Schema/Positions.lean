import Mathlib.Tactic.MkIffOfInductiveProp
import OpenApiTypings.Proofs.Schema.Traversal

/-!
# Where nested schemas stand

The schemas that a node hands down stand under its keywords.  `Node.Nests` lists the places,
each with its weight: a schema lies two levels below the node, and three where the keyword
speaks of objects, because an object is compiled one level below its node.  Whatever holds of
all mappings in a value therefore holds of the schemas that are handed down.
-/

namespace OpenApiTypings

namespace Json

mutual

/-- Every mapping in the value, at any depth, passes the test. -/
def allMappings (p : Table Json → Bool) : Json → Bool
  | .array items => allMappingsInItems p items
  | .object fields => p fields && allMappingsInFields p fields
  | _ => true

/-- Every mapping in the items passes the test. -/
def allMappingsInItems (p : Table Json → Bool) : List Json → Bool
  | [] => true
  | item :: rest => allMappings p item && allMappingsInItems p rest

/-- Every mapping in the values of the fields passes the test. -/
def allMappingsInFields (p : Table Json → Bool) : List (String × Json) → Bool
  | [] => true
  | (_, value) :: rest => allMappings p value && allMappingsInFields p rest

end

variable {p : Table Json → Bool}

theorem allMappings_array {items : List Json} :
    (array items).allMappings p = true ↔ ∀ item ∈ items, item.allMappings p = true := by
  rw [allMappings]
  induction items with
  | nil => simp [allMappingsInItems]
  | cons item rest ih => simp [allMappingsInItems, ih]

theorem allMappings_object {fields : Table Json} :
    (object fields).allMappings p = true ↔
      p fields = true ∧ ∀ entry ∈ fields, entry.2.allMappings p = true := by
  have hfields : allMappingsInFields p fields = true ↔
      ∀ entry ∈ fields, entry.2.allMappings p = true := by
    induction fields with
    | nil => simp [allMappingsInFields]
    | cons entry rest ih => simp [allMappingsInFields, ih]
  rw [allMappings, Bool.and_eq_true, hfields]

/-- No mapping in the value, at any depth, has the key of a reference. -/
def RefFree (value : Json) : Prop :=
  value.allMappings (fun mapping => (Table.get? mapping "$ref").isNone) = true

instance (value : Json) : Decidable value.RefFree := inferInstanceAs (Decidable (_ = true))

end Json

namespace Schema

/-! ### Positions -/

/-- A schema stands under a keyword of the node, with the weight of the step down to it.  The
requirements between properties lead to the schemas of the properties that they name, so they
have no case of their own. -/
@[mk_iff]
inductive Node.Nests (node : Node) : Nat → Json → Prop
  | property {properties : Table Json} (hproperties : node.properties? = some properties)
      {entry : String × Json} (hentry : entry ∈ properties) : Nests node 3 entry.2
  | pattern {patterns : Table Json} (hpatterns : node.patternProperties? = some patterns)
      {entry : String × Json} (hentry : entry ∈ patterns) : Nests node 3 entry.2
  | additional {schema : Json} (hadditional : node.additionalProperties? = some schema) :
      Nests node 3 schema
  | condition {keyword : String} (hkeyword : keyword ∈ ["if", "then", "else"]) {schema : Json}
      (hschema : node.get? keyword = some schema) : Nests node 3 schema
  | branch {keyword : String} (hkeyword : keyword ∈ ["oneOf", "anyOf", "allOf"])
      {branches : List Json} (hbranches : node.list? keyword = some branches) {schema : Json}
      (hbranch : schema ∈ branches) : Nests node 2 schema
  | items {schema : Json} (hitems : node.items? = some schema) : Nests node 2 schema

/-- A way down from a schema to a mapping that is nested in it, or to its own, with the sum of
the weights of the steps. -/
inductive PathTo : Json → Nat → Node → Prop
  | here {schema : Json} {node : Node} (hnode : Node.ofJson? schema = some node) :
      PathTo schema 0 node
  | down {schema inner : Json} {node target : Node} {weight rest : Nat}
      (hnode : Node.ofJson? schema = some node) (hstep : node.Nests weight inner)
      (hrest : PathTo inner rest target) : PathTo schema (weight + rest) target

theorem Node.Nests.weight_eq {node : Node} {weight : Nat} {schema : Json}
    (h : node.Nests weight schema) : weight = 2 ∨ weight = 3 := by
  cases h with
  | property | pattern | additional | condition => exact Or.inr rfl
  | branch | items => exact Or.inl rfl

/-! ### Parts -/

section Parts

variable {node : Node} {part : Part}

theorem nests_of_mem_propertyParts {name : String}
    (h : part ∈ propertyParts (node.properties?.getD []) name) :
    node.Nests (part.step + 2) part.schema := by
  unfold propertyParts at h
  cases hproperties : node.properties? with
  | none =>
    rw [hproperties] at h
    cases h
  | some properties =>
    rw [hproperties, Option.getD_some] at h
    split at h
    · rename_i schema hget
      obtain rfl := List.mem_singleton.mp h
      exact .property hproperties (Table.mem_of_get? hget)
    · cases h

theorem nests_of_mem_dependenciesParts
    (h : part ∈ dependenciesParts node (node.properties?.getD [])) :
    node.Nests (part.step + 2) part.schema := by
  obtain ⟨⟨key, names⟩, -, hpart⟩ := List.mem_flatMap.mp h
  cases names with
  | array items =>
    rcases List.mem_append.mp hpart with hname | hkey
    · obtain ⟨name, -, hname⟩ := List.mem_flatMap.mp hname
      exact nests_of_mem_propertyParts hname
    · split at hkey
      · cases hkey
      · exact nests_of_mem_propertyParts hkey
  | _ => cases hpart

theorem nests_of_mem_extraParts (h : part ∈ patternParts node ++ additionalParts node) :
    node.Nests (part.step + 2) part.schema := by
  rcases List.mem_append.mp h with hpattern | hadditional
  · obtain ⟨⟨⟨pattern, schema⟩, i⟩, hindexed, hpart⟩ := List.mem_flatMap.mp hpattern
    cases hpatterns : node.patternProperties? with
    | none =>
      rw [hpatterns] at hindexed
      cases hindexed
    | some patterns =>
      rw [hpatterns, Option.getD_some] at hindexed
      have hentry : (pattern, schema) ∈ patterns :=
        Table.mem_of_mem_sorted (List.fst_mem_of_mem_zipIdx hindexed)
      cases schema with
      | object fields =>
        obtain rfl := List.mem_singleton.mp hpart
        exact .pattern hpatterns hentry
      | _ => cases hpart
  · unfold additionalParts at hadditional
    split at hadditional
    · rename_i fields hadd
      obtain rfl := List.mem_singleton.mp hadditional
      exact .additional hadd
    · cases hadditional

theorem nests_of_mem_fieldParts {mode : Mode}
    (h : part ∈ fieldParts mode (node.properties?.getD [])) :
    node.Nests (part.step + 2) part.schema := by
  obtain ⟨entry, hentry, rfl⟩ := List.mem_map.mp h
  have hentry := Table.mem_of_mem_sorted (List.mem_filter.mp hentry).1
  cases hproperties : node.properties? with
  | none =>
    rw [hproperties] at hentry
    cases hentry
  | some properties =>
    rw [hproperties, Option.getD_some] at hentry
    exact .property hproperties hentry

theorem nests_of_mem_outcomeParts {segment keyword : String}
    (hkeyword : keyword ∈ ["if", "then", "else"])
    (h : part ∈ outcomeParts segment (node.get? keyword)) :
    node.Nests (part.step + 2) part.schema := by
  cases hschema : node.get? keyword with
  | none =>
    rw [hschema] at h
    cases h
  | some schema =>
    rw [hschema] at h
    obtain rfl := List.mem_singleton.mp h
    exact .condition hkeyword hschema

theorem nests_of_mem_conditionParts {properties : Table Json}
    (h : part ∈ conditionParts node properties) : node.Nests (part.step + 2) part.schema := by
  rcases List.mem_append.mp h with houtcome | hcondition
  · rcases List.mem_append.mp houtcome with hthen | helse
    · exact nests_of_mem_outcomeParts (by decide) hthen
    · exact nests_of_mem_outcomeParts (by decide) helse
  · split at hcondition
    · exact nests_of_mem_outcomeParts (by decide) hcondition
    · cases hcondition

/-- The parts of an object stand under the keywords of its node. -/
theorem nests_of_mem_objectParts {mode : Mode} (h : part ∈ objectParts mode node) :
    node.Nests (part.step + 2) part.schema := by
  rcases List.mem_append.mp h with hdependency | h
  · exact nests_of_mem_dependenciesParts hdependency
  rcases List.mem_append.mp h with hextra | h
  · exact nests_of_mem_extraParts hextra
  split at h
  · cases h
  rcases List.mem_append.mp h with hfield | hcondition
  · exact nests_of_mem_fieldParts hfield
  · split at hcondition
    · exact nests_of_mem_conditionParts hcondition
    · cases hcondition

theorem nests_of_mem_itemParts (h : part ∈ itemParts node) :
    node.Nests (part.step + 1) part.schema := by
  unfold itemParts at h
  split at h
  · rename_i schema hitems
    obtain rfl := List.mem_singleton.mp h
    exact .items hitems
  · cases h

theorem nests_of_found {c : Combinator} {branches : List Json}
    (hfound : combinator? node = some (c, branches)) {schema : Json} (hbranch : schema ∈ branches) :
    node.Nests 2 schema := by
  obtain ⟨c', hmem, hlist⟩ := List.exists_of_findSome?_eq_some hfound
  obtain ⟨branches', hbranches, heq⟩ := Option.map_eq_some_iff.mp hlist
  cases heq
  have hkeyword : c.keyword ∈ ["oneOf", "anyOf", "allOf"] :=
    List.mem_map_of_mem (f := Combinator.keyword) hmem
  exact .branch hkeyword hbranches hbranch

/-- The parts of a node stand under its keywords, and their steps are those of the places but
for the level of the schema itself. -/
theorem nests_of_mem_nodeParts {mode : Mode} (h : part ∈ nodeParts mode node) :
    node.Nests (part.step + 1) part.schema := by
  have hobject : part ∈ (objectParts mode node).map Part.below →
      node.Nests (part.step + 1) part.schema := by
    intro hpart
    obtain ⟨inner, hinner, rfl⟩ := List.mem_map.mp hpart
    exact nests_of_mem_objectParts hinner
  unfold nodeParts at h
  split at h
  · cases h
  unfold shapeParts at h
  split at h
  · rename_i c branches hfound
    obtain ⟨⟨branch, i⟩, hindexed, rfl⟩ := List.mem_map.mp h
    exact nests_of_found hfound (List.fst_mem_of_mem_zipIdx hindexed)
  unfold typedParts at h
  split at h
  · split at h
    · exact hobject h
    · exact nests_of_mem_itemParts h
  · obtain ⟨name, -, hpart⟩ := List.mem_flatMap.mp h
    unfold typeNameParts at hpart
    split at hpart
    · exact nests_of_mem_itemParts hpart
    split at hpart
    · exact hobject hpart
    · cases hpart

/-- The parts of a node stand one or two levels below it. -/
theorem step_of_mem_nodeParts {mode : Mode} (h : part ∈ nodeParts mode node) :
    part.step = 1 ∨ part.step = 2 := by
  have hweight := (nests_of_mem_nodeParts h).weight_eq
  omega

end Parts

/-! ### Mappings -/

section Mappings

variable {p : Table Json → Bool} {node : Node}

theorem allMappings_of_get? (h : (Json.object node.entries).allMappings p = true) {keyword : String}
    {value : Json} (hget : node.get? keyword = some value) : value.allMappings p = true :=
  (Json.allMappings_object.mp h).2 _ (Table.mem_of_get? hget)

theorem allMappings_of_mapping? (h : (Json.object node.entries).allMappings p = true)
    {keyword : String} {entries : Table Json} (hmapping : node.mapping? keyword = some entries)
    {entry : String × Json} (hentry : entry ∈ entries) : entry.2.allMappings p = true := by
  obtain ⟨value, hvalue, hobject⟩ := Option.bind_eq_some_iff.mp hmapping
  cases value with
  | object fields =>
    obtain rfl := Option.some.inj hobject
    exact (Json.allMappings_object.mp (allMappings_of_get? h hvalue)).2 entry hentry
  | _ => cases hobject

/-- What all mappings of a node have, those of its nested schemas have. -/
theorem Node.Nests.allMappings {weight : Nat} {schema : Json} (hnests : node.Nests weight schema)
    (h : (Json.object node.entries).allMappings p = true) : schema.allMappings p = true := by
  cases hnests with
  | property hproperties hentry => exact allMappings_of_mapping? h hproperties hentry
  | pattern hpatterns hentry =>
    exact allMappings_of_mapping? h (Option.filter_eq_some_iff.mp hpatterns).1 hentry
  | additional hadditional => exact allMappings_of_get? h hadditional
  | condition _ hschema => exact allMappings_of_get? h hschema
  | branch _ hbranches hbranch =>
    obtain ⟨value, hvalue, harray⟩ :=
      Option.bind_eq_some_iff.mp (Option.filter_eq_some_iff.mp hbranches).1
    cases value with
    | array items =>
      obtain rfl := Option.some.inj harray
      exact Json.allMappings_array.mp (allMappings_of_get? h hvalue) _ hbranch
    | _ => cases harray
  | items hitems => exact allMappings_of_get? h (Option.filter_eq_some_iff.mp hitems).1

/-- A node without the key of a reference is none. -/
theorem reference?_of_refFree {schema : Json} (hnode : Node.ofJson? schema = some node)
    (h : schema.RefFree) : node.reference? = none := by
  obtain rfl := eq_object_of_ofJson? hnode
  have hget := (Json.allMappings_object.mp h).1
  unfold Node.reference? Node.get?
  rw [Option.isNone_iff_eq_none.mp hget]
  rfl

end Mappings

end Schema

end OpenApiTypings
