import OpenApiTypings.Proofs.Table
import OpenApiTypings.Proofs.Type.Denotation
import OpenApiTypings.Schema.Compile
import Mathlib.Data.List.Forall2
import Mathlib.Logic.ExistsUnique

/-!
# Valid values

Which values a schema admits, keyword by keyword and without a look at how it is
compiled.  There are two readings.  By the standard one a keyword for objects says
nothing of other values, so a node without a type admits values of every kind.  By the
inferred one such a node, where no constant, listed values or combination of schemas
decide, is about objects alone when it speaks of properties, and about lists alone when
it speaks of items.

References, pattern properties and conditions are not covered; `Plain` schemas have
none.
-/

namespace OpenApiTypings

/-! ### Equal values and kinds of values -/

namespace Json

/-- The values are equal as JSON: numbers by value, objects by key. -/
inductive Same : Json → Json → Prop
  | null : Same .null .null
  | bool (b : Bool) : Same (.bool b) (.bool b)
  | number {m n : Number} (hvalue : m.value = n.value) : Same (.number m) (.number n)
  | string (s : String) : Same (.string s) (.string s)
  | array {xs ys : List Json} (hitems : List.Forall₂ Same xs ys) :
      Same (.array xs) (.array ys)
  | object {xs ys : List (String × Json)}
      (hfields : ∀ key, Option.Rel Same (field? (.object xs) key) (field? (.object ys) key)) :
      Same (.object xs) (.object ys)

/-- The kinds of values that types are declared for. -/
inductive Kind where
  | string
  | number
  | boolean
  | null
  | array
  | object
  | any
  deriving DecidableEq

/-- The kind of a declared type name; a name that is not known restricts nothing. -/
def Kind.ofName (name : String) : Kind :=
  if name = "string" then .string
  else if name = "number" || name = "integer" then .number
  else if name = "boolean" then .boolean
  else if name = "null" then .null
  else if name = "array" then .array
  else if name = "object" then .object
  else .any

/-- The value is of a kind. -/
def HasKind (v : Json) : Kind → Prop
  | .string => ∃ s, v = .string s
  | .number => ∃ n, v = .number n
  | .boolean => ∃ b, v = .bool b
  | .null => v = .null
  | .array => ∃ items, v = .array items
  | .object => v.IsObject
  | .any => True

/-- The value has a declared type; an integer is a number with a whole value. -/
def HasType (v : Json) (name : String) : Prop :=
  v.HasKind (Kind.ofName name) ∧
    (name = "integer" → ∀ n, v = .number n → ∃ k : Int, n.value = k)

end Json

namespace Schema

open Json (Kind)

/-! ### Keywords without schemas -/

/-- How a node without a type is read. -/
inductive Reading where
  | standard
  | inferred

namespace Node

/-- No constant, listed values or combination of schemas decide what the node admits. -/
def Undecided (node : Node) : Prop :=
  node.const?.bind Literal.ofJson? = none ∧ node.enumValues? = none ∧
    node.list? "oneOf" = none ∧ node.list? "anyOf" = none ∧ node.list? "allOf" = none

/-- The kind of values that the keywords of a node are about. -/
def suggestedKind (node : Node) : Kind :=
  if looksLikeObject node then .object
  else if node.items?.isSome then .array
  else .any

/-- What the keywords of a node without schemas in them ask of a value. -/
structure Asserts (reading : Reading) (node : Node) (v : Json) : Prop where
  const : ∀ c, node.const? = some c → v.Same c
  enum : ∀ values, node.enumValues? = some values → ∃ c ∈ values, v.Same c
  type : node.types = [] ∨ ∃ name ∈ node.types, v.HasType name
  suggested : reading = .inferred → node.types = [] → node.Undecided →
    v.HasKind node.suggestedKind
  required : v.IsObject → ∀ name ∈ node.required, ∃ x, v.field? name = some x
  dependent : ∀ key names, (key, Json.array names) ∈ node.dependentRequired?.getD [] →
    (∃ x, v.field? key = some x) →
    ∀ name ∈ names.filterMap Json.string?, ∃ x, v.field? name = some x

/-! ### Sizes of nested schemas -/

theorem sizeOf_lt_of_get? {entries : Table Json} {keyword : String} {schema : Json}
    (h : (Node.mk entries).get? keyword = some schema) :
    sizeOf schema < sizeOf (Json.object entries) := by
  have hmem := List.sizeOf_lt_of_mem (Table.mem_of_get? h)
  simp only [Prod.mk.sizeOf_spec, Json.object.sizeOf_spec] at hmem ⊢
  omega

theorem sizeOf_lt_of_list? {entries : Table Json} {keyword : String} {branches : List Json}
    (h : (Node.mk entries).list? keyword = some branches) {branch : Json}
    (hbranch : branch ∈ branches) : sizeOf branch < sizeOf (Json.object entries) := by
  obtain ⟨harray, -⟩ := Option.filter_eq_some_iff.mp h
  obtain ⟨value, hvalue, harray⟩ := Option.bind_eq_some_iff.mp harray
  cases value with
  | array items =>
    cases harray
    have hlt := sizeOf_lt_of_get? hvalue
    have hmem := List.sizeOf_lt_of_mem hbranch
    simp only [Json.array.sizeOf_spec] at hlt
    omega
  | _ => cases harray

theorem sizeOf_lt_of_items? {entries : Table Json} {items : Json}
    (h : (Node.mk entries).items? = some items) :
    sizeOf items < sizeOf (Json.object entries) :=
  sizeOf_lt_of_get? (Option.filter_eq_some_iff.mp h).1

theorem sizeOf_lt_of_mem_properties {entries : Table Json} {entry : String × Json}
    (h : entry ∈ (Node.mk entries).properties?.getD []) :
    sizeOf entry.2 < sizeOf (Json.object entries) := by
  cases hproperties : (Node.mk entries).properties? with
  | none =>
    rw [hproperties] at h
    exact absurd h List.not_mem_nil
  | some properties =>
    rw [hproperties, Option.getD_some] at h
    obtain ⟨value, hvalue, hobject⟩ := Option.bind_eq_some_iff.mp hproperties
    cases value with
    | object fields =>
      obtain rfl := Option.some.inj hobject
      have hlt := sizeOf_lt_of_get? hvalue
      have hmem := List.sizeOf_lt_of_mem h
      obtain ⟨name, schema⟩ := entry
      simp only [Prod.mk.sizeOf_spec, Json.object.sizeOf_spec] at hlt hmem ⊢
      omega
    | _ => cases hobject

end Node

/-! ### Validity -/

/-- The value is valid: it is `null` where the node is nullable, or it meets every
keyword.  A boolean schema admits everything or nothing, and what is no schema admits
everything. -/
def Admits (reading : Reading) : Json → Json → Prop
  | .bool b, _ => b = true
  | .object entries, v =>
      ((Node.mk entries).nullable = true ∧ v = .null) ∨
        (Node.Asserts reading ⟨entries⟩ v ∧
          (∀ branches, (_ : (Node.mk entries).list? "oneOf" = some branches) →
            ∃! i : Fin branches.length, Admits reading (branches.get i) v) ∧
          (∀ branches, (_ : (Node.mk entries).list? "anyOf" = some branches) →
            ∃ i : Fin branches.length, Admits reading (branches.get i) v) ∧
          (∀ branches, (_ : (Node.mk entries).list? "allOf" = some branches) →
            ∀ i : Fin branches.length, Admits reading (branches.get i) v) ∧
          (∀ items, (_ : (Node.mk entries).items? = some items) →
            ∀ elements, v = .array elements → ∀ x ∈ elements, Admits reading items x) ∧
          (∀ entry, (_ : entry ∈ (Node.mk entries).properties?.getD []) →
            ∀ x, v.field? entry.1 = some x → Admits reading entry.2 x) ∧
          (∀ schema, (_ : (Node.mk entries).additionalProperties? = some schema) →
            ∀ key x, v.field? key = some x →
              key ∉ ((Node.mk entries).properties?.getD []).keys → Admits reading schema x))
  | _, _ => True
termination_by schema => sizeOf schema
decreasing_by
  · exact Node.sizeOf_lt_of_list? ‹_› (List.get_mem ..)
  · exact Node.sizeOf_lt_of_list? ‹_› (List.get_mem ..)
  · exact Node.sizeOf_lt_of_list? ‹_› (List.get_mem ..)
  · exact Node.sizeOf_lt_of_items? ‹_›
  · exact Node.sizeOf_lt_of_mem_properties ‹_›
  · exact Node.sizeOf_lt_of_get? ‹_›

/-- What all keywords of a node ask of a value. -/
structure Node.Meets (reading : Reading) (node : Node) (v : Json) : Prop where
  asserts : node.Asserts reading v
  oneOf : ∀ branches, node.list? "oneOf" = some branches →
    ∃! i : Fin branches.length, Admits reading (branches.get i) v
  anyOf : ∀ branches, node.list? "anyOf" = some branches →
    ∃ i : Fin branches.length, Admits reading (branches.get i) v
  allOf : ∀ branches, node.list? "allOf" = some branches →
    ∀ i : Fin branches.length, Admits reading (branches.get i) v
  items : ∀ items, node.items? = some items →
    ∀ elements, v = .array elements → ∀ x ∈ elements, Admits reading items x
  properties : ∀ entry ∈ node.properties?.getD [],
    ∀ x, v.field? entry.1 = some x → Admits reading entry.2 x
  additional : ∀ schema, node.additionalProperties? = some schema →
    ∀ key x, v.field? key = some x → key ∉ (node.properties?.getD []).keys →
      Admits reading schema x

theorem admits_object {reading : Reading} {entries : Table Json} {v : Json} :
    Admits reading (.object entries) v ↔
      ((Node.mk entries).nullable = true ∧ v = .null) ∨ Node.Meets reading ⟨entries⟩ v := by
  rw [Admits]
  constructor
  · rintro (hnull | ⟨hasserts, hone, hany, hall, hitems, hproperties, hadditional⟩)
    · exact Or.inl hnull
    · exact Or.inr ⟨hasserts, hone, hany, hall, hitems, hproperties, hadditional⟩
  · rintro (hnull | h)
    · exact Or.inl hnull
    · exact Or.inr ⟨h.asserts, h.oneOf, h.anyOf, h.allOf, h.items, h.properties, h.additional⟩

/-! ### Plain schemas -/

/-- The node has no reference, no pattern properties, no condition and no constant or
listed number but integers, and it asks something of further properties only when it
declares none. -/
structure Node.Flat (node : Node) : Prop where
  reference : node.reference? = none
  patterns : node.patternProperties? = none
  condition : hasCondition node = false
  additional : node.additionalProperties?.isSome → node.properties?.getD [] = []
  const : ∀ n, node.const? = some (.number n) → ∃ i, n = .integer i
  enum : ∀ values, node.enumValues? = some values →
    ∀ n, Json.number n ∈ values → ∃ i, n = .integer i

/-- Every node of the schema is flat. -/
inductive Plain : Json → Prop
  | scalar {schema : Json} (hscalar : Node.ofJson? schema = none) : Plain schema
  | node {entries : Table Json} (hflat : (Node.mk entries).Flat)
      (hbranches : ∀ keyword ∈ ["oneOf", "anyOf", "allOf"],
        ∀ branches, (Node.mk entries).list? keyword = some branches →
          ∀ branch ∈ branches, Plain branch)
      (hitems : ∀ items, (Node.mk entries).items? = some items → Plain items)
      (hproperties : ∀ entry ∈ (Node.mk entries).properties?.getD [], Plain entry.2)
      (hadditional : ∀ schema, (Node.mk entries).additionalProperties? = some schema →
        Plain schema) :
      Plain (.object entries)

end Schema

end OpenApiTypings
