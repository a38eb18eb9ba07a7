import OpenApiTypings.Json.Basic

/-!
# Keywords of a schema

A schema node is a JSON object; each keyword is read from it when it is needed, and
a keyword with a value of the wrong kind counts as absent.
-/

namespace OpenApiTypings.Schema

/-- The entries of a schema that is an object. -/
structure Node where
  entries : Table Json
  deriving Repr

namespace Node

/-- The node of a schema; booleans and scalars have none. -/
def ofJson? (schema : Json) : Option Node :=
  schema.object?.map Node.mk

def get? (node : Node) (keyword : String) : Option Json :=
  node.entries.get? keyword

/-- True only for the boolean `true` under a keyword. -/
def flag (node : Node) (keyword : String) : Bool :=
  ((node.get? keyword).bind Json.bool?).getD false

/-- The non-empty list under a keyword. -/
def list? (node : Node) (keyword : String) : Option (List Json) :=
  ((node.get? keyword).bind Json.array?).filter fun items => !items.isEmpty

def mapping? (node : Node) (keyword : String) : Option (Table Json) :=
  (node.get? keyword).bind Json.object?

def fullMapping? (node : Node) (keyword : String) : Option (Table Json) :=
  (node.mapping? keyword).filter fun entries => !entries.isEmpty

/-- The pointer of a node that is a reference: a non-empty text under `$ref`. -/
def reference? (node : Node) : Option String :=
  ((node.get? "$ref").bind Json.string?).filter fun pointer => pointer ≠ ""

/-- The declared type names: one text, or the texts of a list. -/
def types (node : Node) : List String :=
  match node.get? "type" with
  | some (.string name) => [name]
  | some (.array items) => items.filterMap Json.string?
  | _ => []

def properties? (node : Node) : Option (Table Json) :=
  node.mapping? "properties"

def required (node : Node) : List String :=
  ((node.list? "required").getD []).filterMap Json.string?

def items? (node : Node) : Option Json :=
  (node.get? "items").filter fun value => !value.isNull

/-- The constant value, `null` included. -/
def const? (node : Node) : Option Json :=
  node.get? "const"

def enumValues? (node : Node) : Option (List Json) :=
  node.list? "enum"

def nullable (node : Node) : Bool :=
  node.flag "nullable"

/-- The node is left out of requests. -/
def readOnly (node : Node) : Bool :=
  node.flag "readOnly"

/-- The node is left out of responses. -/
def writeOnly (node : Node) : Bool :=
  node.flag "writeOnly"

def patternProperties? (node : Node) : Option (Table Json) :=
  node.fullMapping? "patternProperties"

def additionalProperties? (node : Node) : Option Json :=
  node.get? "additionalProperties"

/-- The properties that must be present together with a key. -/
def dependentRequired? (node : Node) : Option (Table Json) :=
  node.fullMapping? "dependentRequired"

end Node

theorem eq_object_of_ofJson? {schema : Json} {node : Node}
    (h : Node.ofJson? schema = some node) : schema = .object node.entries := by
  cases schema with
  | object fields =>
    cases h
    rfl
  | _ => cases h

end OpenApiTypings.Schema
