import OpenApiTypings.Proofs.Schema.Compilation

/-!
# Conditions in one form

The branches of a condition are compiled alike whether or not it pins a property: each
outcome that the node has is compiled in its place, and one that it has not is made up
for.  `compileOutcome` is that step, and the conditions are sequences of it.

An object is then its constraints, its rules for further properties and its fields, with
the condition laid over the type that they make.
-/

namespace OpenApiTypings.Schema

/-- The type of one outcome of a condition, made from the type of its schema; the given
types where the node leaves the outcome out. -/
def compileOutcome (child : Child) (scope : Scope) (segment : String)
    (make : TypeExpr → TypeExpr) (absent : List TypeExpr) :
    Option Json → Compilation (List TypeExpr)
  | some schema => do return [make (← child (scope.child segment 1) schema)]
  | none => return absent

/-- The type of a condition over a type: its discriminated branches, or all branches laid
over that type. -/
def settleCondition (child : Child) (node : Node) (base : TypeExpr) (scope : Scope) :
    List TypeExpr → Compilation TypeExpr
  | [single] => return single
  | first :: second :: more => return .union (first :: second :: more)
  | [] => do
      match ← compileBranches child node scope with
      | [] => return base
      | [single] => return .intersection [base, single]
      | many => return .intersection [base, .union many]

/-- The literals that a condition on one property leaves over: those declared for the
property and not pinned.  Any other condition leaves none. -/
def residue (node : Node) (properties : Table Json) : List Literal :=
  match (node.get? "if").bind pinnedProperty? with
  | some (name, pinned) =>
      (((properties.get? name).bind literalValues?).getD []).filter
        fun literal => !pinned.contains literal
  | none => []

theorem residue_of_pinned {node : Node} {name : String} {pinned : List Literal}
    (h : (node.get? "if").bind pinnedProperty? = some (name, pinned))
    (properties : Table Json) :
    residue node properties =
      (((properties.get? name).bind literalValues?).getD []).filter
        fun literal => !pinned.contains literal := by
  unfold residue
  rw [h]

theorem residue_of_not_pinned {node : Node}
    (h : (node.get? "if").bind pinnedProperty? = none) (properties : Table Json) :
    residue node properties = [] := by
  unfold residue
  rw [h]

/-- The type of the declared fields with the constraints laid over it. -/
def baseType (fields : List (Field TypeExpr)) (extra : ExtraProperties)
    (constraints : List TypeExpr) : TypeExpr :=
  if constraints.isEmpty then extendedType fields extra
  else .intersection (extendedType fields extra :: constraints)

/-- The condition of a node, if it has one, laid over the type of its properties. -/
def layCondition (child : Child) (node : Node) (base : TypeExpr) (scope : Scope) :
    Compilation TypeExpr :=
  if hasCondition node then
    compileConditional child node (node.properties?.getD []) base scope
  else return base

section

variable (child : Child) (node : Node)

theorem compileDiscriminated_eq (properties : Table Json) (base : TypeExpr) (scope : Scope)
    (name : String) (pinned : List Literal) :
    compileDiscriminated child node properties base scope name pinned = do
      let remaining := (((properties.get? name).bind literalValues?).getD []).filter
        fun literal => !pinned.contains literal
      let thenPart ← compileOutcome child scope "Then"
        (fun type => .intersection [narrow base name pinned, type]) [] (node.get? "then")
      let elsePart ← compileOutcome child scope "Else"
        (fun type => .intersection [narrow base name remaining, type])
        (if remaining.isEmpty then [] else [narrow base name remaining]) (node.get? "else")
      return thenPart ++ elsePart := by
  unfold compileDiscriminated
  cases node.get? "then" <;> cases node.get? "else" <;>
    simp only [compileOutcome, pure_bind, bind_assoc]

theorem compileBranches_eq (scope : Scope) :
    compileBranches child node scope = do
      let thenPart ← compileOutcome child scope "Then" id [] (node.get? "then")
      let elsePart ← compileOutcome child scope "Else" id [] (node.get? "else")
      match thenPart ++ elsePart, node.get? "if" with
      | [], some schema => compileOutcome child scope "If" id [] (some schema)
      | parts, _ => return parts := by
  unfold compileBranches
  cases node.get? "then" <;> cases node.get? "else" <;>
    simp only [compileOutcome, pure_bind, bind_assoc] <;> rfl

theorem compileConditional_eq (properties : Table Json) (base : TypeExpr) (scope : Scope) :
    compileConditional child node properties base scope =
      (match (node.get? "if").bind pinnedProperty? with
        | some (name, pinned) =>
            compileDiscriminated child node properties base scope name pinned
        | none => pure []) >>= settleCondition child node base scope := by
  unfold compileConditional
  cases (node.get? "if").bind pinnedProperty? <;> rfl

theorem compileObject_eq (scope : Scope) :
    compileObject child node scope = (do
      let properties := node.properties?.getD []
      let required := distinctNames node.required
      let constraints ← compileDependencies child node properties required scope
      let extra ← compileExtra child node scope
      if properties.isEmpty then return undeclaredObject required extra
      else
        let fields ← compileFields child properties required scope
        layCondition child node (baseType fields extra constraints) scope) := rfl

end

end OpenApiTypings.Schema
