import OpenApiTypings.Schema.Compilation
import OpenApiTypings.Schema.KeyPattern
import OpenApiTypings.Schema.Node
import OpenApiTypings.Schema.Scope
import OpenApiTypings.Type.Union

/-!
# Object schemas

The declared properties of an object make an object type.  Rules for further
properties, requirements between properties, and conditions are laid over it as
intersections and unions.

Everything here is one layer of the compiler: the schemas inside a node are handed
to `child`, which is given as an argument.
-/

namespace OpenApiTypings.Schema

abbrev Child := Scope → Json → Compilation TypeExpr

/-! ### Further properties -/

/-- What a node says of properties that it does not declare. -/
structure ExtraProperties where
  /-- The type of all further values, if they are admitted. -/
  additional : Option TypeExpr
  /-- Further properties are forbidden. -/
  closed : Bool
  /-- Key and value types of pattern properties. -/
  patterns : List (KeyType × TypeExpr)

namespace ExtraProperties

/-- The type of the pattern properties alone, with the union of their values. -/
def patternType? (extra : ExtraProperties) : Option (TypeExpr × TypeExpr) :=
  if extra.patterns.isEmpty then none
  else
    let value := TypeExpr.unionDistinct (extra.patterns.map Prod.snd)
    let keys := KeyType.unionDistinct (extra.patterns.map Prod.fst)
    if keys = [.any] then some (.record value, value)
    else some (.mapped keys value, value)

/-- The type of all further properties; `none` when nothing is said of them. -/
def type? (extra : ExtraProperties) : Option TypeExpr :=
  match extra.additional, extra.patternType? with
  | some additional, some (pattern, value) =>
      some (.intersection
        [pattern, .record (TypeExpr.unionDistinct [additional, value])])
  | some additional, none => some (.record additional)
  | none, some (pattern, _) => some pattern
  | none, none => none

end ExtraProperties

/-- The pattern properties of a node, in the order of their patterns.  A pattern
keeps its number when another one before it says nothing. -/
def compilePatterns (child : Child) (node : Node) (scope : Scope) :
    Compilation (List (KeyType × TypeExpr)) := do
  let patterns := Table.sorted (node.patternProperties?.getD [])
  let compiled ← patterns.zipIdx.mapM fun ((pattern, schema), i) =>
    match schema with
    | .object _ => do
        let type ← child (scope.child ("Pattern" ++ toString (i + 1)) 1) schema
        return some (keyTypeOfPattern pattern, type)
    | _ => return none
  return compiled.filterMap id

def compileExtra (child : Child) (node : Node) (scope : Scope) :
    Compilation ExtraProperties := do
  let patterns ← compilePatterns child node scope
  match node.additionalProperties? with
  | some (.bool true) => return ⟨some .unknown, false, patterns⟩
  | some (.bool false) => return ⟨none, true, patterns⟩
  | some (.object fields) =>
      let type ← child (scope.child "AdditionalProperties" 1) (.object fields)
      return ⟨some type, false, patterns⟩
  | _ => return ⟨none, false, patterns⟩

/-! ### Requirements between properties -/

/-- The type of a declared property; a property that is not declared is unknown. -/
def propertyType (child : Child) (properties : Table Json) (name : String)
    (scope : Scope) : Compilation TypeExpr :=
  match properties.get? name with
  | some schema => child (scope.child name 1) schema
  | none => return .unknown

/-- The constraint that a key brings with it the names listed for it: a required key
is present with all of them, any other is absent or present with all of them.  A
list without names constrains nothing. -/
def compileDependency (child : Child) (properties : Table Json) (required : List String)
    (scope : Scope) (key : String) (names : List String) :
    Compilation (Option TypeExpr) := do
  let dependents ← names.mapM fun name => do
    return Field.required name (← propertyType child properties name scope)
  if dependents.isEmpty then return none
  else
    let keyType ← propertyType child properties key scope
    let present := TypeExpr.objectOf (Field.required key keyType :: dependents)
    if required.contains key then return some present
    else
      let absent := TypeExpr.objectOf [Field.possible key .never]
      return some (.union [absent, present])

def compileDependencies (child : Child) (node : Node) (properties : Table Json)
    (required : List String) (scope : Scope) : Compilation (List TypeExpr) := do
  let entries := Table.sorted (node.dependentRequired?.getD [])
  let constraints ← entries.mapM fun (key, names) =>
    match names with
    | .array items =>
        compileDependency child properties required scope key
          (items.filterMap Json.string?)
    | _ => return none
  return constraints.filterMap id

/-! ### Conditions -/

/-- The literals a property is restricted to by its constant or its listed values.
Values without a literal are passed over. -/
def literalValues? (schema : Json) : Option (List Literal) := do
  let node ← Node.ofJson? schema
  match node.const? with
  | some value => return [← Literal.ofJson? value]
  | none =>
      let literals := (← node.enumValues?).filterMap Literal.ofJson?
      if literals.isEmpty then none else some literals

/-- The one property that a condition pins, with its literals. -/
def pinnedProperty? (condition : Json) : Option (String × List Literal) := do
  let node ← Node.ofJson? condition
  match ← node.properties? with
  | [(name, schema)] => return (name, ← literalValues? schema)
  | _ => none

/-- The type with a property pinned to literals; without literals, the type alone. -/
def narrow (base : TypeExpr) (name : String) (literals : List Literal) : TypeExpr :=
  if literals.isEmpty then base
  else
    let values := TypeExpr.unionOf (literals.map .literal)
    .intersection [base, TypeExpr.objectOf [Field.required name values]]

/-- The branches of a condition on one property: the pinned literals with what then
holds, and the remaining declared literals with what holds else. -/
def compileDiscriminated (child : Child) (node : Node) (properties : Table Json)
    (base : TypeExpr) (scope : Scope) (name : String) (pinned : List Literal) :
    Compilation (List TypeExpr) := do
  let declared := ((properties.get? name).bind literalValues?).getD []
  let remaining := declared.filter fun literal => !pinned.contains literal
  let thenPart ← match node.get? "then" with
    | some schema => do
        let type ← child (scope.child "Then" 1) schema
        pure [TypeExpr.intersection [narrow base name pinned, type]]
    | none => pure []
  let elsePart ← match node.get? "else" with
    | some schema => do
        let type ← child (scope.child "Else" 1) schema
        pure [TypeExpr.intersection [narrow base name remaining, type]]
    | none => pure (if remaining.isEmpty then [] else [narrow base name remaining])
  return thenPart ++ elsePart

/-- The branches of any other condition: both outcomes, or the condition itself when
neither is given. -/
def compileBranches (child : Child) (node : Node) (scope : Scope) :
    Compilation (List TypeExpr) := do
  let thenPart ← match node.get? "then" with
    | some schema => do pure [← child (scope.child "Then" 1) schema]
    | none => pure []
  let elsePart ← match node.get? "else" with
    | some schema => do pure [← child (scope.child "Else" 1) schema]
    | none => pure []
  match thenPart ++ elsePart, node.get? "if" with
  | [], some schema => return [← child (scope.child "If" 1) schema]
  | parts, _ => return parts

def compileConditional (child : Child) (node : Node) (properties : Table Json)
    (base : TypeExpr) (scope : Scope) : Compilation TypeExpr := do
  let discriminated ← match (node.get? "if").bind pinnedProperty? with
    | some (name, pinned) =>
        compileDiscriminated child node properties base scope name pinned
    | none => pure []
  match discriminated with
  | [single] => return single
  | first :: second :: more => return .union (first :: second :: more)
  | [] =>
      match ← compileBranches child node scope with
      | [] => return base
      | [single] => return .intersection [base, single]
      | many => return .intersection [base, .union many]

def hasCondition (node : Node) : Bool :=
  ["if", "then", "else"].any fun keyword => (node.get? keyword).isSome

/-! ### Objects -/

def includesProperty (mode : Mode) (schema : Json) : Bool :=
  match Node.ofJson? schema, mode with
  | none, _ => true
  | some _, .component => true
  | some node, .input => !node.readOnly
  | some node, .output => !node.writeOnly

def compileFields (child : Child) (properties : Table Json) (required : List String)
    (scope : Scope) : Compilation (List (Field TypeExpr)) := do
  let kept := (Table.sorted properties).filter fun entry =>
    includesProperty scope.mode entry.2
  kept.mapM fun (name, schema) => do
    let type ← child (scope.child name 1) schema
    return Field.requiredIf (required.contains name) name type

def undeclaredObject (required : List String) (extra : ExtraProperties) : TypeExpr :=
  if required.isEmpty then
    match extra.type? with
    | some type => type
    | none => .record (if extra.closed then .never else .unknown)
  else
    let base := TypeExpr.objectOf (required.map fun name => Field.required name .unknown)
    match extra.type? with
    | some type => .intersection [base, type]
    | none => base

def distinctNames (names : List String) : List String :=
  Table.keys (Table.sorted (names.map fun name => (name, ())))

/-- The type of an object node.  The scope is already one level below the node. -/
def compileObject (child : Child) (node : Node) (scope : Scope) :
    Compilation TypeExpr := do
  let properties := node.properties?.getD []
  let required := distinctNames node.required
  let constraints ← compileDependencies child node properties required scope
  let extra ← compileExtra child node scope
  if properties.isEmpty then return undeclaredObject required extra
  else
    let fields ← compileFields child properties required scope
    let declared := TypeExpr.objectOf fields
    let extended := match extra.type? with
      | some type => .intersection [declared, type]
      | none => declared
    let base :=
      if constraints.isEmpty then extended
      else .intersection (extended :: constraints)
    if hasCondition node then compileConditional child node properties base scope
    else return base

end OpenApiTypings.Schema
