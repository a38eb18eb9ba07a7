import OpenApiTypings.Document.Basic
import OpenApiTypings.Schema.Object

/-!
# From schemas to types

A schema node is read in this order, and the first part that applies decides:
literals (`const`, `enum`), combinators (`oneOf`, `anyOf`, `allOf`), the declared
type, and for a node without a type what its other keywords suggest.

`compileNode` is one layer; the schemas inside a node are handed to `child`.  The
layers are stacked by `compileNested` and `compileReference`, by recursion on the
number of levels that are left.  Every level goes deeper by at least one, and a
scope beyond the limit of depth is not looked at, so `levelCount` levels are as good
as any larger number.
-/

namespace OpenApiTypings.Schema

/-! ### One layer -/

/-- Adds `null` to the type of a nullable node, unless the type is `null` already. -/
def orNull (node : Node) (type : TypeExpr) : TypeExpr :=
  if node.nullable && !type.isNull then .union [type, .null] else type

/-- Declares the values as an enum named after the hint and gives the type that
refers to it.  Values that make no enum change nothing. -/
def emitEnum (hint : String) (values : List Json) (nullable : Bool) :
    Compilation (Option TypeExpr) :=
  match EnumMember.ofValues? values with
  | none => return none
  | some members => do
      let name ← Compilation.register (EnumDecl.baseName hint values) members
      let type := TypeExpr.enumRef name
      return some (if nullable then .union [type, .null] else type)

/-- The type of a node that lists its values; `none` for any other node. -/
def compileListed (node : Node) (scope : Scope) : Compilation (Option TypeExpr) :=
  match node.enumValues? with
  | none => return none
  | some values => do
      match ← emitEnum scope.hint values node.nullable with
      | some type => return some type
      | none =>
          match values.mapM Literal.ofJson? with
          | some literals =>
              return some (orNull node (.union (literals.map .literal)))
          | none => return some (orNull node .unknown)

/-- The type of a node with a constant or listed values; `none` for any other node.
A constant without a literal gives way to the listed values. -/
def compileLiteral (node : Node) (scope : Scope) : Compilation (Option TypeExpr) :=
  match node.const? with
  | none => compileListed node scope
  | some value => do
      match ← emitEnum scope.hint [value] node.nullable with
      | some type => return some type
      | none =>
          match Literal.ofJson? value with
          | some literal => return some (orNull node (.literal literal))
          | none => compileListed node scope

/-- A keyword that combines schemas, the hint segment of its branches, and the type
that its branches make. -/
structure Combinator where
  keyword : String
  segment : String
  combine : List TypeExpr → TypeExpr

/-- The combinators in the order in which they are looked for. -/
def combinators : List Combinator :=
  [⟨"oneOf", "OneOf", .union⟩, ⟨"anyOf", "AnyOf", .union⟩,
    ⟨"allOf", "AllOf", .intersection⟩]

def combinator? (node : Node) : Option (Combinator × List Json) :=
  combinators.findSome? fun c => (node.list? c.keyword).map fun branches => (c, branches)

def compileCombinator (child : Child) (node : Node) (scope : Scope) :
    Compilation (Option TypeExpr) :=
  match combinator? node with
  | none => return none
  | some (c, branches) => do
      let parts ← branches.zipIdx.mapM fun (branch, i) =>
        child (scope.child (c.segment ++ toString (i + 1)) 1) branch
      return some (orNull node (c.combine parts))

def compileArray (child : Child) (node : Node) (scope : Scope) :
    Compilation TypeExpr :=
  match node.items? with
  | some items => do return .array (← child (scope.child "Item" 1) items)
  | none => return .array .unknown

/-- The type for one declared type name, before `null` is added. -/
def compileTypeName (child : Child) (node : Node) (scope : Scope) (name : String) :
    Compilation TypeExpr :=
  if name = "string" then return .string
  else if name = "number" || name = "integer" then return .number
  else if name = "boolean" then return .boolean
  else if name = "null" then return .null
  else if name = "array" then compileArray child node scope
  else if name = "object" then compileObject child node (scope.deeper 1)
  else return .unknown

def looksLikeObject (node : Node) : Bool :=
  !(node.properties?.getD []).isEmpty || !node.required.isEmpty ||
    node.patternProperties?.isSome || node.additionalProperties?.isSome

def compileUntyped (child : Child) (node : Node) (scope : Scope) :
    Compilation TypeExpr := do
  let type ←
    if looksLikeObject node then compileObject child node (scope.deeper 1)
    else if node.items?.isSome then compileArray child node scope
    else pure .unknown
  return orNull node type

def compileTyped (child : Child) (node : Node) (scope : Scope) :
    Compilation TypeExpr :=
  match node.types with
  | [] => compileUntyped child node scope
  | [single] => do
      let type ← compileTypeName child node scope single
      return if single = "null" then type else orNull node type
  | many => do
      let parts ← many.mapM (compileTypeName child node scope)
      let type := TypeExpr.unionDistinct parts
      return if many.contains "null" then type else orNull node type

/-- The type of a node that is no reference. -/
def compileNode (child : Child) (node : Node) (scope : Scope) :
    Compilation TypeExpr := do
  match ← compileLiteral node scope with
  | some type => return type
  | none =>
      match ← compileCombinator child node scope with
      | some type => return type
      | none => compileTyped child node scope

/-! ### Stacking the layers -/

abbrev Follow := String → Scope → Compilation TypeExpr

def compileSlotWith (follow : Follow) (child : Child) (slot : RefOr Json)
    (scope : Scope) : Compilation TypeExpr :=
  match slot with
  | .reference pointer => follow pointer scope
  | .inline schema =>
      if scope.exhausted then do
        Compilation.note (.depthExhausted scope.hint scope.depth)
        return .unknown
      else
        match Node.ofJson? schema with
        | none => return .unknown
        | some node =>
            match node.reference? with
            | some pointer => follow pointer scope
            | none => compileNode child node scope

/-- The type of a reference to a component schema.  In a component it stays a
look-up; in requests and responses the schema itself is compiled in its place, so
that properties are left out of it too.  A pointer to anything else is unknown, and
a pointer to a schema that is not there stays a look-up. -/
def compileReferenceWith (schemas : Table (RefOr Json))
    (slot : RefOr Json → Scope → Compilation TypeExpr) (pointer : String)
    (scope : Scope) : Compilation TypeExpr :=
  match Section.schemas.nameIn? pointer with
  | none => return .unknown
  | some name =>
      if scope.mode = .component then return .component .schemas name
      else
        match schemas.get? name with
        | none => return .component .schemas name
        | some target =>
            if maxDepth < scope.depth + 1 then do
              Compilation.note (.referenceDepthExhausted pointer scope.depth)
              return .unknown
            else slot target (scope.renamed name 1)

/-- The type of a schema nested in a node, one level below the scope. -/
def compileNestedWith (follow : Follow) (child : Child) (scope : Scope)
    (schema : Json) : Compilation TypeExpr :=
  if scope.exhausted then return .unknown
  else
    match Node.ofJson? schema with
    | none => return .unknown
    | some node =>
        let inner := scope.deeper 1
        match node.reference? with
        | some pointer => follow pointer inner
        | none =>
            if inner.exhausted then do
              Compilation.note (.depthExhausted scope.hint inner.depth)
              return .unknown
            else compileNode child node inner

mutual

def compileReferenceIn (schemas : Table (RefOr Json)) : Nat → Follow
  | 0, _, _ => return .unknown
  | levels + 1, pointer, scope =>
      compileReferenceWith schemas
        (compileSlotWith (compileReferenceIn schemas levels)
          (compileNestedIn schemas levels))
        pointer scope

def compileNestedIn (schemas : Table (RefOr Json)) : Nat → Child
  | 0, _, _ => return .unknown
  | levels + 1, scope, schema =>
      compileNestedWith (compileReferenceIn schemas levels)
        (compileNestedIn schemas levels) scope schema

end

/-- More levels than any compilation takes: a nested schema is looked at down to
`maxDepth`, and a reference one level below that. -/
def levelCount : Nat := maxDepth + 3

def compileReference (schemas : Table (RefOr Json)) (pointer : String) (scope : Scope) :
    Compilation TypeExpr :=
  compileReferenceIn schemas levelCount pointer scope

def compileNested (schemas : Table (RefOr Json)) (scope : Scope) (schema : Json) :
    Compilation TypeExpr :=
  compileNestedIn schemas levelCount scope schema

def compile (schemas : Table (RefOr Json)) (slot : RefOr Json) (scope : Scope) :
    Compilation TypeExpr :=
  compileSlotWith (compileReference schemas) (compileNested schemas) slot scope

/-- The type of a slot that may be empty; an empty slot is unknown. -/
def compileOptional (schemas : Table (RefOr Json)) (slot : Option (RefOr Json))
    (scope : Scope) : Compilation TypeExpr :=
  match slot with
  | some slot => compile schemas slot scope
  | none => return .unknown

end OpenApiTypings.Schema
