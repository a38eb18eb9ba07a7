import OpenApiTypings.Proofs.Schema.Discriminant
import OpenApiTypings.Proofs.Schema.Keywords
import OpenApiTypings.Proofs.Schema.Object
import OpenApiTypings.Proofs.Schema.Recompilation
import OpenApiTypings.Proofs.Table

/-!
# Requirements of an object

An object node asks for properties in two ways: by the names it requires, and by the names
that a key brings with it.  What is asked for is *imposed* by the type of the object when it
stands in every alternative of that type.

A component imposes each required name that is declared, and the requirements between
properties as soon as any property is declared.  Where none is declared it imposes all
required names, and nothing else.  The rest is ignored: the object is the same without it.
-/

namespace OpenApiTypings

/-! ### What a type imposes -/

namespace TypeExpr

/-- The type stands in every alternative of another one, so whatever belongs to that one
belongs to it. -/
inductive ImposedBy (part : TypeExpr) : TypeExpr → Prop
  | refl : ImposedBy part part
  | intersection {parts type} (htype : type ∈ parts) (h : ImposedBy part type) :
      ImposedBy part (.intersection parts)
  | union {parts} (hparts : parts ≠ []) (h : ∀ type ∈ parts, ImposedBy part type) :
      ImposedBy part (.union parts)

/-- The type has a field in every alternative. -/
def HasField (type : TypeExpr) (field : Field TypeExpr) : Prop :=
  ∃ fields, field ∈ fields ∧ (object fields).ImposedBy type

namespace ImposedBy

variable {part middle type : TypeExpr}

theorem trans (h : part.ImposedBy middle) (h' : middle.ImposedBy type) : part.ImposedBy type := by
  induction h' with
  | refl => exact h
  | intersection htype _ ih => exact .intersection htype ih
  | union hparts _ ih => exact .union hparts ih

theorem unionOf {parts : List TypeExpr} (hparts : parts ≠ [])
    (h : ∀ type ∈ parts, part.ImposedBy type) : part.ImposedBy (unionOf parts) := by
  match parts with
  | [] => exact absurd rfl hparts
  | [single] => exact h single (List.mem_singleton.mpr rfl)
  | first :: second :: more => exact .union hparts h

end ImposedBy

end TypeExpr

namespace Schema

open TypeExpr

/-! ### Conditions -/

section Conditions

variable (child : Child) (node : Node) (base : TypeExpr) (scope : Scope) (registry : Registry)

theorem Branch.imposes_base (name : String) (branch : Branch) :
    base.ImposedBy (branch.type base name) := by
  have hnarrow : base.ImposedBy (narrow base name branch.pins) := by
    unfold narrow
    split
    · exact .refl
    · exact .intersection (List.mem_cons_self ..) .refl
  unfold Branch.type
  split
  · exact hnarrow
  · exact .intersection (List.mem_cons_self ..) hnarrow

theorem compileConditional_imposes (properties : Table Json) :
    base.ImposedBy
      ((compileConditional child node properties base scope).run registry).value := by
  cases hpinned : (node.get? "if").bind pinnedProperty? with
  | some found =>
    obtain ⟨name, pinned⟩ := found
    obtain ⟨branches, hbranches, -⟩ :=
      exists_branches child node properties base scope registry hpinned
    rw [hbranches.type_eq]
    refine ImposedBy.unionOf (by simpa using hbranches.nonempty) fun type htype => ?_
    obtain ⟨branch, -, rfl⟩ := List.mem_map.mp htype
    exact branch.imposes_base base name
  | none =>
    rw [compileConditional_eq, hpinned, pure_bind, settleCondition, Compilation.run_bind]
    simp only
    split
    · exact .refl
    · exact .intersection (List.mem_cons_self ..) .refl
    · exact .intersection (List.mem_cons_self ..) .refl

theorem layCondition_imposes :
    base.ImposedBy ((layCondition child node base scope).run registry).value := by
  unfold layCondition
  split
  · exact compileConditional_imposes child node base scope registry _
  · exact .refl

end Conditions

/-! ### The base of an object -/

section Base

variable (fields : List (Field TypeExpr)) (extra : ExtraProperties) (constraints : List TypeExpr)

theorem baseType_imposes_fields :
    (objectOf fields).ImposedBy (baseType fields extra constraints) := by
  have hextended : (objectOf fields).ImposedBy (extendedType fields extra) := by
    unfold extendedType
    split
    · exact .intersection (List.mem_cons_self ..) .refl
    · exact .refl
  unfold baseType
  split
  · exact hextended
  · exact .intersection (List.mem_cons_self ..) hextended

theorem baseType_imposes_constraint {constraint : TypeExpr} (h : constraint ∈ constraints) :
    constraint.ImposedBy (baseType fields extra constraints) := by
  rw [baseType, if_neg (by simpa using List.ne_nil_of_mem h)]
  exact .intersection (List.mem_cons_of_mem _ h) .refl

theorem undeclaredObject_hasField {required : List String} {name : String}
    (h : name ∈ required) :
    (undeclaredObject required extra).HasField (Field.required name .unknown) := by
  have hfield : Field.required name .unknown ∈
      Field.sortByName (required.map fun name => Field.required name TypeExpr.unknown) :=
    Field.mem_sortByName.mpr (List.mem_map.mpr ⟨name, h, rfl⟩)
  refine ⟨_, hfield, ?_⟩
  rw [undeclaredObject, if_neg (by simpa using List.ne_nil_of_mem h)]
  simp only
  split
  · exact .intersection (List.mem_cons_self ..) .refl
  · exact .refl

end Base

theorem mem_declaredFields (types : String → Json → TypeExpr) {properties : Table Json}
    {required : List String} {name : String} {schema : Json}
    (hentry : (name, schema) ∈ Table.sorted properties) (hname : name ∈ required) :
    Field.required name (types name schema) ∈
      declaredFields types .component properties required := by
  have hkept : (name, schema) ∈ (Table.sorted properties).filter
      fun entry => includesProperty .component entry.2 :=
    List.mem_filter.mpr ⟨hentry, includesProperty_component schema⟩
  refine List.mem_map.mpr ⟨_, hkept, ?_⟩
  simp [Field.requiredIf, Field.required, hname]

theorem mem_dependencyConstraints (types : String → TypeExpr) {node : Node}
    (required : List String) {key : String} {items : List Json}
    (hentry : (key, .array items) ∈ Table.sorted (node.dependentRequired?.getD []))
    (hitems : items.filterMap Json.string? ≠ []) :
    ∃ constraint,
      dependencyConstraint types required key (items.filterMap Json.string?) = some constraint ∧
        constraint ∈ dependencyConstraints types node required := by
  obtain ⟨constraint, hsome⟩ : ∃ constraint,
      dependencyConstraint types required key (items.filterMap Json.string?) =
        some constraint := by
    rw [dependencyConstraint, if_neg (by simpa using hitems)]
    simp only
    split <;> exact ⟨_, rfl⟩
  exact ⟨constraint, hsome, List.mem_filterMap.mpr ⟨_, hentry, hsome⟩⟩

/-! ### What is ignored -/

section Ignored

variable {node node' : Node} (child : Child) (scope : Scope)

/-- Where properties are declared, only these and the keys of requirements between
properties are looked for among the required names. -/
theorem compileObject_congr_of_required (h : node.AgreeBut "required" node')
    (hdeclared : node.properties?.getD [] ≠ [])
    (hnames : ∀ name, name ∈ (node.properties?.getD []).keys ∨
      name ∈ (node.dependentRequired?.getD []).keys →
        (name ∈ node'.required ↔ name ∈ node.required)) :
    compileObject child node' scope = compileObject child node scope := by
  have hcontains : ∀ name, name ∈ (node.properties?.getD []).keys ∨
      name ∈ (node.dependentRequired?.getD []).keys →
        (distinctNames node'.required).contains name =
          (distinctNames node.required).contains name := by
    intro name hname
    rw [Bool.eq_iff_iff]
    simp only [List.contains_iff_mem, mem_distinctNames, hnames name hname]
  have hconstraints : compileDependencies child node' (node.properties?.getD [])
        (distinctNames node'.required) scope =
      compileDependencies child node (node.properties?.getD [])
        (distinctNames node.required) scope := by
    unfold compileDependencies
    rw [h.dependentRequired? (by decide)]
    dsimp only
    congr 1
    refine mapM_congr_of_mem ?_
    rintro ⟨key, names⟩ hentry
    cases names with
    | array items =>
      have hkey := hcontains key (Or.inr (Table.mem_keys_sorted.mp (List.mem_map_of_mem hentry)))
      simp only [compileDependency, hkey]
    | _ => rfl
  have hfields : compileFields child (node.properties?.getD [])
        (distinctNames node'.required) scope =
      compileFields child (node.properties?.getD []) (distinctNames node.required) scope := by
    unfold compileFields
    refine mapM_congr_of_mem ?_
    rintro ⟨name, schema⟩ hentry
    have hmem := (List.mem_filter.mp hentry).1
    have hname := hcontains name (Or.inl (Table.mem_keys_sorted.mp (List.mem_map_of_mem hmem)))
    simp only [hname]
  rw [compileObject_eq, compileObject_eq, h.properties? (by decide),
    h.compileExtra (by decide) (by decide)]
  have hnonempty : (node.properties?.getD []).isEmpty = false := by simpa using hdeclared
  simp only [hconstraints, hfields, hnonempty, Bool.false_eq_true, if_false,
    h.layCondition (by decide) (by decide) (by decide) (by decide)]

/-- Where no property is declared, the requirements between properties are compiled and left
out. -/
theorem compileObject_of_undeclared (hundeclared : node.properties?.getD [] = []) :
    compileObject child node scope = do
      return undeclaredObject (distinctNames node.required) (← compileExtra child node scope) := by
  -- no property has a schema, so the child is not asked for any
  have hchild : compileDependencies child node [] (distinctNames node.required) scope =
      compileDependencies (child.frozen Registry.empty) node [] (distinctNames node.required)
        scope := rfl
  rw [compileObject_eq, hundeclared]
  simp only [hchild, compileDependencies_frozen, pure_bind, List.isEmpty_nil, if_true]

end Ignored

/-! ### Components -/

section Component

variable (schemas : Table (RefOr Json)) (node : Node) (scope : Scope) (registry : Registry)

theorem undeclared_hasField (hundeclared : node.properties?.getD [] = []) {name : String}
    (hname : name ∈ node.required) :
    ((compileObject (compileNested schemas) node scope).run registry).value.HasField
      (Field.required name .unknown) := by
  rw [compileObject_value (compileNested_stable schemas), hundeclared]
  exact undeclaredObject_hasField _ (mem_distinctNames.mpr hname)

theorem declared_imposes_base (hdeclared : node.properties?.getD [] ≠ []) :
    let child := compileNested schemas
    let object := (compileObject child node scope).run registry
    (baseFrom (propertyTypes child scope object.enums) scope.mode node
      ((compileExtra child node scope).run object.enums).value).ImposedBy object.value := by
  intro child object
  have hvalue := compileObject_value (compileNested_stable schemas) node scope registry
  dsimp only at hvalue
  rw [if_neg (by simpa using hdeclared)] at hvalue
  change TypeExpr.ImposedBy _
    ((compileObject (compileNested schemas) node scope).run registry).value
  rw [hvalue]
  exact layCondition_imposes ..

/-- A component imposes each required name that is declared, with the type of its property,
and every requirement between properties; which other names are required makes no
difference to it.  Where it declares no property, it imposes every required name, and the
requirements between properties make no difference. -/
theorem component_requirements (depth : Nat) (hint : String) :
    let child := compileNested schemas
    let scope : Scope := ⟨depth, .component, hint⟩
    let properties := node.properties?.getD []
    let dependent := node.dependentRequired?.getD []
    let object := (compileObject child node scope).run registry
    let types := propertyTypes child scope object.enums
    (properties ≠ [] →
      (∀ name ∈ node.required, ∀ schema, (name, schema) ∈ Table.sorted properties →
        object.value.HasField (Field.required name (types name schema))) ∧
      (∀ key items, (key, .array items) ∈ Table.sorted dependent →
        items.filterMap Json.string? ≠ [] →
          ∃ constraint, dependencyConstraint (declaredType types properties)
              (distinctNames node.required) key (items.filterMap Json.string?) =
                some constraint ∧
            constraint.ImposedBy object.value) ∧
      ∀ node', node.AgreeBut "required" node' →
        (∀ name, name ∈ properties.keys ∨ name ∈ dependent.keys →
          (name ∈ node'.required ↔ name ∈ node.required)) →
        compileObject child node' scope = compileObject child node scope) ∧
    (properties = [] →
      (∀ name ∈ node.required, object.value.HasField (Field.required name .unknown)) ∧
      ∀ node', node.AgreeBut "dependentRequired" node' →
        compileObject child node' scope = compileObject child node scope) := by
  intro child scope properties dependent object types
  constructor
  · intro hdeclared
    have hbase := declared_imposes_base schemas node scope registry hdeclared
    refine ⟨?_, ?_, ?_⟩
    · intro name hname schema hentry
      have hfield := mem_declaredFields types hentry (mem_distinctNames.mpr hname)
      exact ⟨_, Field.mem_sortByName.mpr hfield,
        (baseType_imposes_fields _ _ _).trans hbase⟩
    · intro key items hentry hitems
      obtain ⟨constraint, hsome, hmem⟩ := mem_dependencyConstraints
        (declaredType types properties) (distinctNames node.required) hentry hitems
      exact ⟨constraint, hsome, (baseType_imposes_constraint _ _ _ hmem).trans hbase⟩
    · intro node' hagree hnames
      exact compileObject_congr_of_required child scope hagree hdeclared hnames
  · intro hundeclared
    constructor
    · intro name hname
      exact undeclared_hasField schemas node scope registry hundeclared hname
    · intro node' hagree
      have hundeclared' : node'.properties?.getD [] = [] := by
        rw [hagree.properties? (by decide)]
        exact hundeclared
      rw [compileObject_of_undeclared child scope hundeclared,
        compileObject_of_undeclared child scope hundeclared', hagree.required (by decide),
        hagree.compileExtra (by decide) (by decide)]

end Component

/-! ### A payment -/

/-- A payment by card, which brings a holder with it. -/
def paymentNode : Node :=
  ⟨[("dependentRequired", .object [("card", .array [.string "holder"])]),
    ("properties", .object [("card", .object [("type", .string "string")])]),
    ("required", .array [.string "card"])]⟩

theorem component_requirements_payment :
    let object := (compileObject (compileNested []) paymentNode ⟨0, .component, ""⟩).run
      Registry.empty
    object.value.HasField (Field.required "card" .string) ∧
      (TypeExpr.objectOf
        [Field.required "card" .string, Field.required "holder" .unknown]).ImposedBy
          object.value := by
  intro object
  obtain ⟨hrequired, hdependent, -⟩ :=
    (component_requirements [] paymentNode Registry.empty 0 "").1 nofun
  constructor
  · exact hrequired "card" (by decide +kernel) (.object [("type", .string "string")])
      (List.mem_singleton.mpr rfl)
  · obtain ⟨constraint, hsome, himposed⟩ :=
      hdependent "card" [.string "holder"] (List.mem_singleton.mpr rfl) (by decide +kernel)
    obtain rfl := Option.some.inj hsome
    exact himposed

/-- An object that requires a name and does not declare it. -/
def strangerNode : Node :=
  ⟨[("properties", .object [("card", .object [("type", .string "string")])]),
    ("required", .array [.string "holder"])]⟩

/-- An object with a requirement between properties and no property. -/
def bareNode : Node :=
  ⟨[("dependentRequired", .object [("card", .array [.string "holder"])])]⟩

/-- Required names that are not declared are dropped where others are, and requirements
between properties where no property is. -/
theorem not_component_requirements :
    (¬ ∀ node : Node,
      let scope : Scope := ⟨0, .component, ""⟩
      let object := (compileObject (compileNested []) node scope).run Registry.empty
      let types := propertyTypes (compileNested []) scope object.enums
      ∀ name ∈ node.required, object.value.HasField
        (Field.required name (declaredType types (node.properties?.getD []) name))) ∧
    ¬ ∀ node : Node,
      let scope : Scope := ⟨0, .component, ""⟩
      let object := (compileObject (compileNested []) node scope).run Registry.empty
      let types := propertyTypes (compileNested []) scope object.enums
      ∀ key items, (key, .array items) ∈ Table.sorted (node.dependentRequired?.getD []) →
        items.filterMap Json.string? ≠ [] →
          ∃ constraint, dependencyConstraint (declaredType types (node.properties?.getD []))
              (distinctNames node.required) key (items.filterMap Json.string?) =
                some constraint ∧
            constraint.ImposedBy object.value := by
  constructor
  · intro hrequired
    obtain ⟨fields, hfield, himposed⟩ := hrequired strangerNode "holder" (by decide +kernel)
    have hvalue : ((compileObject (compileNested []) strangerNode ⟨0, .component, ""⟩).run
        Registry.empty).value = .object [Field.possible "card" .string] := rfl
    rw [hvalue] at himposed
    cases himposed
    have hname := congrArg Field.name (List.mem_singleton.mp hfield)
    revert hname
    decide
  · intro hdependent
    obtain ⟨constraint, hsome, himposed⟩ := hdependent bareNode "card" [.string "holder"]
      (List.mem_singleton.mpr rfl) (by decide +kernel)
    have hvalue : ((compileObject (compileNested []) bareNode ⟨0, .component, ""⟩).run
        Registry.empty).value = .record .unknown := rfl
    rw [hvalue] at himposed
    cases himposed
    cases hsome

end Schema

end OpenApiTypings
