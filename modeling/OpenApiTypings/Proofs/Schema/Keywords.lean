import OpenApiTypings.Proofs.Schema.Condition

/-!
# Nodes that differ in one keyword

A node is read keyword by keyword.  Two nodes that have the same values under all keywords
but one are therefore told apart only by what reads that keyword.
-/

namespace OpenApiTypings.Schema

/-- The nodes have the same values under all keywords but one. -/
def Node.AgreeBut (keyword : String) (node node' : Node) : Prop :=
  ∀ other, other ≠ keyword → node'.get? other = node.get? other

/-- The keywords that give a node its shape: all that it is read by, but for those that give it
literals and the mark of a nullable node. -/
def Node.shapeKeywords : List String :=
  ["type", "items", "oneOf", "anyOf", "allOf", "properties", "required", "dependentRequired",
    "patternProperties", "additionalProperties", "if", "then", "else"]

namespace Node.AgreeBut

variable {keyword : String} {node node' : Node} (h : node.AgreeBut keyword node')
include h

theorem list? {other : String} (hother : other ≠ keyword) :
    node'.list? other = node.list? other := by
  simp only [Node.list?, h other hother]

theorem fullMapping? {other : String} (hother : other ≠ keyword) :
    node'.fullMapping? other = node.fullMapping? other := by
  simp only [Node.fullMapping?, Node.mapping?, h other hother]

theorem properties? (hother : "properties" ≠ keyword) : node'.properties? = node.properties? := by
  simp only [Node.properties?, Node.mapping?, h _ hother]

theorem required (hother : "required" ≠ keyword) : node'.required = node.required := by
  simp only [Node.required, h.list? hother]

theorem dependentRequired? (hother : "dependentRequired" ≠ keyword) :
    node'.dependentRequired? = node.dependentRequired? :=
  h.fullMapping? hother

theorem compileExtra (hadditional : "additionalProperties" ≠ keyword)
    (hpatterns : "patternProperties" ≠ keyword) (child : Child) (scope : Scope) :
    compileExtra child node' scope = compileExtra child node scope := by
  unfold Schema.compileExtra compilePatterns Node.additionalProperties? Node.patternProperties?
  rw [h.fullMapping? hpatterns, h _ hadditional]

section Conditions

variable (hif : "if" ≠ keyword) (hthen : "then" ≠ keyword) (helse : "else" ≠ keyword)
include hif hthen helse

theorem hasCondition : hasCondition node' = hasCondition node := by
  simp only [Schema.hasCondition, List.any_cons, List.any_nil, h _ hif, h _ hthen, h _ helse]

theorem settleCondition (child : Child) (base : TypeExpr) (scope : Scope) :
    settleCondition child node' base scope = settleCondition child node base scope := by
  have hbranches : compileBranches child node' scope = compileBranches child node scope := by
    unfold compileBranches
    rw [h _ hif, h _ hthen, h _ helse]
  funext types
  unfold Schema.settleCondition
  rw [hbranches]

/-- The condition is read from its own keywords and from the properties that are given. -/
theorem compileConditional (child : Child) (properties : Table Json) (base : TypeExpr)
    (scope : Scope) :
    compileConditional child node' properties base scope =
      compileConditional child node properties base scope := by
  simp only [compileConditional_eq, compileDiscriminated_eq, h _ hif, h _ hthen, h _ helse,
    h.settleCondition hif hthen helse]

theorem layCondition (hproperties : "properties" ≠ keyword) (child : Child) (base : TypeExpr)
    (scope : Scope) :
    layCondition child node' base scope = layCondition child node base scope := by
  unfold Schema.layCondition
  rw [h.hasCondition hif hthen helse, h.properties? hproperties,
    h.compileConditional hif hthen helse]

end Conditions

section Shapes

variable (hkeyword : keyword ∉ Node.shapeKeywords)
include hkeyword

theorem compileObject (child : Child) (scope : Scope) :
    compileObject child node' scope = compileObject child node scope := by
  have hne : ∀ other ∈ Node.shapeKeywords, other ≠ keyword :=
    fun _ hother => ne_of_mem_of_not_mem hother hkeyword
  simp only [compileObject_eq, h.properties? (hne _ (by decide)), h.required (hne _ (by decide)),
    h.compileExtra (hne _ (by decide)) (hne _ (by decide)),
    h.layCondition (hne _ (by decide)) (hne _ (by decide)) (hne _ (by decide))
      (hne _ (by decide))]
  unfold compileDependencies
  rw [h.dependentRequired? (hne _ (by decide))]

theorem items? : node'.items? = node.items? := by
  simp only [Node.items?, h "items" (ne_of_mem_of_not_mem (by decide) hkeyword)]

theorem compileArray (child : Child) (scope : Scope) :
    compileArray child node' scope = compileArray child node scope := by
  unfold Schema.compileArray
  rw [h.items? hkeyword]

theorem compileTypeName (child : Child) (scope : Scope) :
    compileTypeName child node' scope = compileTypeName child node scope := by
  funext name
  unfold Schema.compileTypeName
  rw [h.compileArray hkeyword, h.compileObject hkeyword]

theorem types : node'.types = node.types := by
  simp only [Node.types, h "type" (ne_of_mem_of_not_mem (by decide) hkeyword)]

theorem combinator? : combinator? node' = combinator? node := by
  have hlist : ∀ other ∈ Node.shapeKeywords, node'.list? other = node.list? other :=
    fun _ hother => h.list? (ne_of_mem_of_not_mem hother hkeyword)
  simp only [Schema.combinator?, combinators, List.findSome?_cons, List.findSome?_nil,
    hlist "oneOf" (by decide), hlist "anyOf" (by decide), hlist "allOf" (by decide)]

theorem looksLikeObject : looksLikeObject node' = looksLikeObject node := by
  have hne : ∀ other ∈ Node.shapeKeywords, other ≠ keyword :=
    fun _ hother => ne_of_mem_of_not_mem hother hkeyword
  unfold Schema.looksLikeObject Node.patternProperties? Node.additionalProperties?
  rw [h.properties? (hne _ (by decide)), h.required (hne _ (by decide)),
    h.fullMapping? (hne _ (by decide)), h "additionalProperties" (hne _ (by decide))]

/-- A keyword that no node is read by makes no difference. -/
theorem compileNode (hconst : "const" ≠ keyword) (henum : "enum" ≠ keyword)
    (hnullable : "nullable" ≠ keyword) (child : Child) (scope : Scope) :
    compileNode child node' scope = compileNode child node scope := by
  have hflag : node'.nullable = node.nullable := by
    simp only [Node.nullable, Node.flag, h "nullable" hnullable]
  have hnull : orNull node' = orNull node := by
    funext type
    simp only [orNull, hflag]
  have hlisted : compileListed node' scope = compileListed node scope := by
    simp only [compileListed, Node.enumValues?, h.list? henum, hflag, hnull]
  have hliteral : compileLiteral node' scope = compileLiteral node scope := by
    simp only [compileLiteral, Node.const?, h "const" hconst, hflag, hnull, hlisted]
  have hcombinator : compileCombinator child node' scope = compileCombinator child node scope := by
    simp only [compileCombinator, h.combinator? hkeyword, hnull]
  have htyped : compileTyped child node' scope = compileTyped child node scope := by
    simp only [compileTyped, compileUntyped, h.types hkeyword, h.compileTypeName hkeyword,
      h.looksLikeObject hkeyword, h.items? hkeyword, h.compileArray hkeyword,
      h.compileObject hkeyword, hnull]
  simp only [Schema.compileNode, hliteral, hcombinator, htyped]

end Shapes

end Node.AgreeBut

end OpenApiTypings.Schema
