import OpenApiTypings.Proofs.Schema.Keywords
import OpenApiTypings.Proofs.Schema.Recompilation
import OpenApiTypings.Proofs.Table

/-!
# Properties that are left out

A property that is marked as read-only is left out of requests, one that is marked as
write-only is left out of responses.  What its schema says still reaches the type of the
object in two ways, and in no other: through a requirement between properties that names
it, by the type it would have had, and through a condition that pins it, by the literals
that are declared for it.

The statements compare the objects of two nodes that differ in the schema of one property.
-/

namespace OpenApiTypings.Schema

/-- The schema is marked as left out on the side of the wire. -/
def Hidden : Mode → Json → Prop
  | .component, _ => False
  | .input, schema => ∃ node, Node.ofJson? schema = some node ∧ node.readOnly = true
  | .output, schema => ∃ node, Node.ofJson? schema = some node ∧ node.writeOnly = true

theorem Hidden.includesProperty {mode : Mode} {schema : Json} (h : Hidden mode schema) :
    includesProperty mode schema = false := by
  unfold Schema.includesProperty
  cases mode with
  | component => exact h.elim
  | input =>
    obtain ⟨node, hnode, hmarked⟩ := h
    rw [hnode]
    simp only [hmarked, Bool.not_true]
  | output =>
    obtain ⟨node, hnode, hmarked⟩ := h
    rw [hnode]
    simp only [hmarked, Bool.not_true]

/-- The nodes are the same but for the schema of one declared property. -/
structure DifferIn (name : String) (schema schema' : Json) (node node' : Node) : Prop where
  /-- All other keywords have the same values. -/
  others : ∀ keyword, keyword ≠ "properties" → node'.get? keyword = node.get? keyword
  /-- All other properties have the same schemas. -/
  properties : ∃ before behind,
    node.properties? = some (before ++ (name, schema) :: behind) ∧
      node'.properties? = some (before ++ (name, schema') :: behind)

/-- Nodes whose entries are the same but for one property differ in that property. -/
theorem DifferIn.of_entries (name : String) (schema schema' : Json)
    (top before behind bottom : Table Json) (htop : top.get? "properties" = none) :
    DifferIn name schema schema'
      ⟨top ++ ("properties", .object (before ++ (name, schema) :: behind)) :: bottom⟩
      ⟨top ++ ("properties", .object (before ++ (name, schema') :: behind)) :: bottom⟩ where
  others keyword hkeyword := by
    rcases Table.get?_eq_or "properties" (.object (before ++ (name, schema) :: behind))
      (.object (before ++ (name, schema') :: behind)) top bottom keyword with hsame | ⟨hname, -⟩
    · exact hsame
    · exact absurd hname hkeyword
  properties := by
    refine ⟨before, behind, ?_, ?_⟩
    · simp only [Node.properties?, Node.mapping?, Node.get?, Table.get?_append_cons_self htop,
        Option.bind_some, Json.object?]
    · simp only [Node.properties?, Node.mapping?, Node.get?, Table.get?_append_cons_self htop,
        Option.bind_some, Json.object?]

/-- The names that a key and the names listed for it bring into a constraint. -/
def constrainedNames (key : String) (names : List String) : List String :=
  if names.isEmpty then [] else key :: names

/-- The names that stand in the requirements between the properties of a node. -/
def dependencyNames (node : Node) : List String :=
  (Table.sorted (node.dependentRequired?.getD [])).flatMap fun (key, names) =>
    match names with
    | .array items => constrainedNames key (items.filterMap Json.string?)
    | _ => []

/-- The property that the condition of a node pins. -/
def pinnedName? (node : Node) : Option String :=
  ((node.get? "if").bind pinnedProperty?).map Prod.fst

/-! ### The properties -/

section Properties

variable {mode : Mode} (name : String) {schema schema' : Json} (before behind : Table Json)

/-- The properties that are kept are the same. -/
theorem kept_eq (hhidden : includesProperty mode schema = false)
    (hhidden' : includesProperty mode schema' = false) :
    (Table.sorted (before ++ (name, schema') :: behind)).filter
        (fun entry => includesProperty mode entry.2) =
      (Table.sorted (before ++ (name, schema) :: behind)).filter
        (fun entry => includesProperty mode entry.2) := by
  -- entry by entry the tables are equal or hold a property that is dropped from both
  have hsame : ∀ entries : Table Json, List.Forall₂ (fun e e' : String × Json => e.1 = e'.1 ∧
      (e = e' ∨ includesProperty mode e.2 = false ∧ includesProperty mode e'.2 = false))
      entries entries :=
    fun entries => List.forall₂_same.mpr fun _ _ => ⟨rfl, Or.inl rfl⟩
  have hpairs := List.rel_append (hsame before)
    (List.Forall₂.cons (a := (name, schema')) (b := (name, schema))
      ⟨rfl, Or.inr ⟨hhidden', hhidden⟩⟩ (hsame behind))
  have hsorted := Table.forall₂_sorted (fun _ _ he => he.1) hpairs
  exact filter_eq_of_forall₂ (hsorted.imp fun _ _ he => he.2)

variable {name}

/-- The residue of a condition depends on the literals of the property that it pins. -/
theorem residue_congr {node node' : Node} (hif : node'.get? "if" = node.get? "if")
    (hpinned : pinnedName? node = some name → literalValues? schema' = literalValues? schema) :
    residue node' (before ++ (name, schema') :: behind) =
      residue node (before ++ (name, schema) :: behind) := by
  unfold residue
  rw [hif]
  cases hcondition : (node.get? "if").bind pinnedProperty? with
  | none => rfl
  | some found =>
    obtain ⟨other, pinned⟩ := found
    rcases Table.get?_eq_or name schema schema' before behind other with hsame | ⟨rfl, hget, hget'⟩
    · simp only [hsame]
    · have hname : pinnedName? node = some other := by
        unfold pinnedName?
        rw [hcondition]
        rfl
      simp only [hget, hget', Option.bind_some, hpinned hname]

variable {before behind} {child : Child} {scope : Scope}

theorem propertyType_congr {other : String}
    (hchild : other = name →
      child (scope.child name 1) schema' = child (scope.child name 1) schema) :
    propertyType child (before ++ (name, schema') :: behind) other scope =
      propertyType child (before ++ (name, schema) :: behind) other scope := by
  unfold propertyType
  rcases Table.get?_eq_or name schema schema' before behind other with hsame | ⟨rfl, hget, hget'⟩
  · rw [hsame]
  · rw [hget, hget']
    exact hchild rfl

theorem compileDependency_congr {properties properties' : Table Json} {key : String}
    {names : List String} (required : List String)
    (h : ∀ other ∈ constrainedNames key names,
      propertyType child properties' other scope = propertyType child properties other scope) :
    compileDependency child properties' required scope key names =
      compileDependency child properties required scope key names := by
  cases names with
  | nil => rfl
  | cons first more =>
    unfold compileDependency
    rw [h key (List.mem_cons_self ..)]
    congr 1
    refine mapM_congr_of_mem fun other hother => ?_
    rw [h other (List.mem_cons_of_mem _ hother)]

end Properties

/-! ### Objects -/

section Objects

variable {name : String} {schema schema' : Json} {node node' : Node} {before behind : Table Json}
  {child : Child} {scope : Scope}
  (h : node.AgreeBut "properties" node')
  (hchild : name ∈ dependencyNames node →
    child (scope.child name 1) schema' = child (scope.child name 1) schema)
  (hpinned : pinnedName? node = some name → literalValues? schema' = literalValues? schema)
include h

include hchild in
theorem compileDependencies_congr (required : List String) :
    compileDependencies child node' (before ++ (name, schema') :: behind) required scope =
      compileDependencies child node (before ++ (name, schema) :: behind) required scope := by
  unfold compileDependencies
  rw [h.dependentRequired? (by decide)]
  dsimp only
  congr 1
  refine mapM_congr_of_mem ?_
  rintro ⟨key, names⟩ hentry
  cases names with
  | array items =>
    refine compileDependency_congr required fun other hother => propertyType_congr ?_
    rintro rfl
    exact hchild (List.mem_flatMap.mpr ⟨(key, .array items), hentry, hother⟩)
  | _ => rfl

include hpinned in
theorem compileConditional_congr (base : TypeExpr) :
    compileConditional child node' (before ++ (name, schema') :: behind) base scope =
      compileConditional child node (before ++ (name, schema) :: behind) base scope := by
  have hresidue := residue_congr before behind (h "if" (by decide)) hpinned
  rw [compileConditional_eq, compileConditional_eq,
    h.settleCondition (by decide) (by decide) (by decide)]
  congr 1
  cases hcondition : (node.get? "if").bind pinnedProperty? with
  | none =>
    rw [h "if" (by decide), hcondition]
  | some found =>
    obtain ⟨other, pinned⟩ := found
    have hcondition' := hcondition
    rw [← h "if" (by decide)] at hcondition'
    rw [residue_of_pinned hcondition, residue_of_pinned hcondition'] at hresidue
    rw [hcondition']
    simp only [compileDiscriminated_eq, hresidue, h "then" (by decide), h "else" (by decide)]

end Objects

/-- Two objects that differ in a property which is left out are the same, when the
requirements between properties and the condition cannot tell its schemas apart. -/
theorem compileObject_congr {name : String} {schema schema' : Json} {node node' : Node}
    (hdiffer : DifferIn name schema schema' node node') {child : Child} {scope : Scope}
    (hhidden : includesProperty scope.mode schema = false)
    (hhidden' : includesProperty scope.mode schema' = false)
    (hchild : name ∈ dependencyNames node →
      child (scope.child name 1) schema' = child (scope.child name 1) schema)
    (hpinned : pinnedName? node = some name → literalValues? schema' = literalValues? schema) :
    compileObject child node' scope = compileObject child node scope := by
  obtain ⟨before, behind, hproperties, hproperties'⟩ := hdiffer.properties
  have h : node.AgreeBut "properties" node' := hdiffer.others
  have hfields : ∀ required,
      compileFields child (before ++ (name, schema') :: behind) required scope =
        compileFields child (before ++ (name, schema) :: behind) required scope := by
    intro required
    unfold compileFields
    rw [kept_eq name before behind hhidden hhidden']
  have hlay : ∀ base, layCondition child node' base scope = layCondition child node base scope := by
    intro base
    unfold layCondition
    rw [hproperties, hproperties', h.hasCondition (by decide) (by decide) (by decide),
      Option.getD_some, Option.getD_some, compileConditional_congr h hpinned]
  have hempty : ∀ s, (before ++ (name, s) :: behind).isEmpty = false := by
    intro s
    cases before <;> rfl
  rw [compileObject_eq, compileObject_eq, hproperties, hproperties', h.required (by decide),
    h.compileExtra (by decide) (by decide)]
  simp only [Option.getD_some, compileDependencies_congr h hchild, hfields, hlay, hempty]

/-- What is said of a property that is left out reaches the type of the object and its
enums in two ways alone: where the requirements between properties name it, by the type
that it has itself, and where the condition pins it, by its literals. -/
theorem projection_hides_property (schemas : Table (RefOr Json)) (scope : Scope)
    (registry : Registry) {name : String} {schema schema' : Json} {node node' : Node}
    (hdiffer : DifferIn name schema schema' node node')
    (hhidden : Hidden scope.mode schema) (hhidden' : Hidden scope.mode schema')
    (hrequired : name ∈ dependencyNames node →
      compileNested schemas (scope.child name 1) schema' =
        compileNested schemas (scope.child name 1) schema)
    (hpinned : pinnedName? node = some name → literalValues? schema' = literalValues? schema) :
    (compileObject (compileNested schemas) node' scope).run registry =
      (compileObject (compileNested schemas) node scope).run registry := by
  rw [compileObject_congr hdiffer hhidden.includesProperty hhidden'.includesProperty hrequired
    hpinned]

/-- A person with an identifier, whose name asks for another property, and a condition on
the kind. -/
def personNode (needed : String) (id : Json) : Node :=
  ⟨[("dependentRequired", .object [("name", .array [.string needed])]),
      ("if", .object [("properties", .object [("kind", .object [("const", .string "a")])])])] ++
    ("properties", .object ([] ++ ("id", id) :: [("kind", .object [("enum", .array
      [.string "a", .string "b"])]), ("name", .object [("type", .string "string")])])) ::
    [("type", .string "object")]⟩

/-- An identifier that requests leave out. -/
def plainId : Json := .object [("readOnly", .bool true)]

/-- An identifier that requests leave out, with its values. -/
def listedId : Json :=
  .object [("enum", .array [.string "p", .string "q"]), ("readOnly", .bool true)]

theorem differIn_personNode (needed : String) :
    DifferIn "id" plainId listedId (personNode needed plainId) (personNode needed listedId) :=
  DifferIn.of_entries "id" plainId listedId _ [] _ _ rfl

theorem projection_hides_property_person :
    (compileObject (compileNested []) (personNode "kind" listedId)
        (Scope.top .input "Person")).run Registry.empty =
      (compileObject (compileNested []) (personNode "kind" plainId)
        (Scope.top .input "Person")).run Registry.empty := by
  refine projection_hides_property [] (Scope.top .input "Person") Registry.empty
    (differIn_personNode "kind") ⟨_, rfl, rfl⟩ ⟨_, rfl, rfl⟩ ?_ ?_
  · exact fun hmem => absurd hmem (by decide +kernel)
  · exact fun hname => absurd hname (by decide +kernel)

/-- A requirement that names the identifier tells its values: they are declared as an enum
of the request. -/
theorem not_projection_hides_property :
    ¬ ∀ (schemas : Table (RefOr Json)) (scope : Scope) (registry : Registry) (name : String)
      (schema schema' : Json) (node node' : Node),
      DifferIn name schema schema' node node' → Hidden scope.mode schema →
        Hidden scope.mode schema' →
          ((compileObject (compileNested schemas) node' scope).run registry).value =
              ((compileObject (compileNested schemas) node scope).run registry).value ∧
            ((compileObject (compileNested schemas) node' scope).run registry).enums =
              ((compileObject (compileNested schemas) node scope).run registry).enums := by
  intro hhides
  have hsame := hhides [] (Scope.top .input "Person") Registry.empty "id" plainId listedId _ _
    (differIn_personNode "id") ⟨_, rfl, rfl⟩ ⟨_, rfl, rfl⟩
  have hsize := congrArg Registry.size hsame.2
  revert hsize
  decide +kernel

end OpenApiTypings.Schema
