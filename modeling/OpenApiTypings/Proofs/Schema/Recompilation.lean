import OpenApiTypings.Proofs.Schema.Compilation
import OpenApiTypings.Proofs.Schema.Layers
import OpenApiTypings.Proofs.Schema.Stability
import OpenApiTypings.Proofs.Schema.Traversal

/-!
# Schemas that are compiled again

The same schema is compiled many times over: a property once for every requirement that
names it and once for its field, a component wherever it is inlined.  Every computation of
the compiler is stable, so each of these runs gives the same type, and only the first one
declares anything.
-/

namespace OpenApiTypings.Schema

open Compilation (Stable SettledIn)

/-! ### Literals -/

theorem compileListed_stable (node : Node) (scope : Scope) :
    (compileListed node scope).Stable := by
  unfold compileListed
  cases node.enumValues? with
  | none => exact Stable.pure none
  | some values =>
    refine Stable.bind (EnumCall.stable ⟨scope.hint, values, node.nullable⟩) fun type? => ?_
    cases type? with
    | some type => exact Stable.pure (some type)
    | none => cases values.mapM Literal.ofJson? <;> exact Stable.pure _

theorem compileLiteral_stable (node : Node) (scope : Scope) :
    (compileLiteral node scope).Stable := by
  unfold compileLiteral
  cases node.const? with
  | none => exact compileListed_stable node scope
  | some value =>
    refine Stable.bind (EnumCall.stable ⟨scope.hint, [value], node.nullable⟩) fun type? => ?_
    cases type? with
    | some type => exact Stable.pure (some type)
    | none =>
      cases Literal.ofJson? value with
      | some literal => exact Stable.pure _
      | none => exact compileListed_stable node scope

/-! ### Layers over a stable child -/

/-- Nested schemas are compiled by stable computations. -/
def StableChild (child : Child) : Prop := ∀ scope schema, (child scope schema).Stable

namespace AsksFor

variable {scope : Scope} {layer : Child → Compilation α} {parts : List Part} {P : α → Prop}
  {child : Child} {registry : Registry}

theorem stable (h : AsksFor scope layer parts P) (hchild : StableChild child) :
    (layer child).Stable := by
  obtain ⟨make, -, hlayer⟩ := h
  rw [hlayer child]
  exact Stable.bind (Stable.mapM fun part _ => hchild _ part.schema) fun _ => Stable.pure _

/-- A layer is settled once all its parts are, and not before. -/
theorem settledIn_iff (h : AsksFor scope layer parts P) (hchild : StableChild child) :
    (layer child).SettledIn registry ↔
      ∀ part ∈ parts, (part.compile child scope).SettledIn registry := by
  obtain ⟨make, -, hlayer⟩ := h
  rw [hlayer child]
  have hparts : ∀ part ∈ parts, (part.compile child scope).Stable :=
    fun part _ => hchild _ part.schema
  constructor
  · intro hsettled
    have hfirst := (SettledIn.of_bind (Stable.mapM hparts) (fun _ => Stable.pure _) hsettled).1
    exact SettledIn.of_mapM hparts hfirst
  · intro hsettled
    exact SettledIn.bind (SettledIn.mapM hsettled) fun _ => SettledIn.pure _

end AsksFor

theorem compileNode_stable {child : Child} (hchild : StableChild child) (node : Node)
    (scope : Scope) : (compileNode child node scope).Stable := by
  obtain ⟨make, hnode⟩ := compileNode_eq node scope
  rw [hnode child]
  refine Stable.bind (compileLiteral_stable node scope) fun listed? => ?_
  exact Stable.bind (Stable.mapM fun part _ => hchild _ part.schema) fun _ => Stable.pure _

/-- A node is settled once its literals and all its parts are, and not before. -/
theorem compileNode_settledIn_iff {child : Child} (hchild : StableChild child) (node : Node)
    (scope : Scope) (registry : Registry) :
    (compileNode child node scope).SettledIn registry ↔
      (compileLiteral node scope).SettledIn registry ∧
        ∀ part ∈ nodeParts scope.mode node, (part.compile child scope).SettledIn registry := by
  obtain ⟨make, hnode⟩ := compileNode_eq node scope
  rw [hnode child]
  have hparts : ∀ part ∈ nodeParts scope.mode node, (part.compile child scope).Stable :=
    fun part _ => hchild _ part.schema
  have hanswers : ∀ listed? : Option TypeExpr,
      Stable (do
        let answers ← (nodeParts scope.mode node).mapM (Part.compile child scope)
        return listed?.getD (make answers)) :=
    fun _ => Stable.bind (Stable.mapM hparts) fun _ => Stable.pure _
  constructor
  · intro hsettled
    obtain ⟨hliteral, hrest⟩ :=
      SettledIn.of_bind (compileLiteral_stable node scope) hanswers hsettled
    have hrest := hrest registry (Registry.Reaches.refl registry)
    obtain ⟨hmany, -⟩ := SettledIn.of_bind (Stable.mapM hparts) (fun _ => Stable.pure _) hrest
    exact ⟨hliteral, SettledIn.of_mapM hparts hmany⟩
  · rintro ⟨hliteral, hmany⟩
    exact SettledIn.bind hliteral fun _ =>
      SettledIn.bind (SettledIn.mapM hmany) fun _ => SettledIn.pure _

/-! ### The whole compiler -/

theorem stable_keptByLayers : KeptByLayers (Stable : Compilation TypeExpr → Prop) where
  unknown := Stable.pure _
  exhausted event := Stable.bind (Stable.note event) fun _ => Stable.pure _
  component _ := Stable.pure _
  node := compileNode_stable

theorem compileNested_stable (schemas : Table (RefOr Json)) :
    StableChild (compileNested schemas) :=
  stable_keptByLayers.compileNested schemas

theorem compile_stable (schemas : Table (RefOr Json)) (slot : RefOr Json) (scope : Scope) :
    (compile schemas slot scope).Stable :=
  stable_keptByLayers.compile schemas slot scope

/-! ### Answers in a settled registry -/

/-- The child that declares nothing and gives every nested schema the type that it has in
the registry. -/
def Child.frozen (child : Child) (registry : Registry) : Child :=
  fun scope schema => pure ((child scope schema).run registry).value

theorem Child.frozen_settledIn (child : Child) (registry : Registry) (scope : Scope)
    (schema : Json) (other : Registry) :
    (child.frozen registry scope schema).SettledIn other :=
  SettledIn.pure _

/-- Where its parts are settled, a layer makes its value from the types that they have
there, wherever and however often it asks for them. -/
theorem AsksFor.value_frozen {scope : Scope} {layer : Child → Compilation α}
    {parts : List Part} {P : α → Prop} (h : AsksFor scope layer parts P) {child : Child}
    {registry : Registry} (hparts : ∀ part ∈ parts, (part.compile child scope).SettledIn registry) :
    ((layer child).run registry).value = ((layer (child.frozen registry)).run registry).value := by
  obtain ⟨make, -, hlayer⟩ := h
  have hfrozen : ∀ part ∈ parts, (part.compile (child.frozen registry) scope).SettledIn registry :=
    fun part _ => child.frozen_settledIn registry _ part.schema registry
  rw [hlayer child, hlayer (child.frozen registry)]
  simp only [Compilation.run_bind, Compilation.run_pure]
  rw [SettledIn.mapM_value hparts, SettledIn.mapM_value hfrozen]
  rfl

/-! ### The base of an object -/

/-- The type of a property, from the types of the declared ones. -/
def declaredType (types : String → Json → TypeExpr) (properties : Table Json)
    (name : String) : TypeExpr :=
  match properties.get? name with
  | some schema => types name schema
  | none => .unknown

/-- The constraint that a key brings with it the names, over given types. -/
def dependencyConstraint (types : String → TypeExpr) (required : List String) (key : String)
    (names : List String) : Option TypeExpr :=
  if names.isEmpty then none
  else
    let present := TypeExpr.objectOf
      (Field.required key (types key) :: names.map fun name => Field.required name (types name))
    if required.contains key then some present
    else some (.union [.objectOf [Field.possible key .never], present])

/-- The constraint of one entry, over given types; an entry without a list has none. -/
def entryConstraint (types : String → TypeExpr) (required : List String) (key : String) :
    Json → Option TypeExpr
  | .array items => dependencyConstraint types required key (items.filterMap Json.string?)
  | _ => none

/-- The constraints between the properties of a node, over given types. -/
def dependencyConstraints (types : String → TypeExpr) (node : Node) (required : List String) :
    List TypeExpr :=
  (Table.sorted (node.dependentRequired?.getD [])).filterMap fun (key, names) =>
    entryConstraint types required key names

/-- The fields of the declared properties, with given types. -/
def declaredFields (types : String → Json → TypeExpr) (mode : Mode) (properties : Table Json)
    (required : List String) : List (Field TypeExpr) :=
  ((Table.sorted properties).filter fun entry => includesProperty mode entry.2).map
    fun (name, schema) => Field.requiredIf (required.contains name) name (types name schema)

/-- The base of an object whose constraints and fields have the same types. -/
def baseFrom (types : String → Json → TypeExpr) (mode : Mode) (node : Node)
    (extra : ExtraProperties) : TypeExpr :=
  let properties := node.properties?.getD []
  let required := distinctNames node.required
  baseType (declaredFields types mode properties required) extra
    (dependencyConstraints (declaredType types properties) node required)

section Objects

variable (child : Child) (node : Node) (properties : Table Json) (required : List String)
  (scope : Scope)

variable (registry : Registry)

/-- The type of each property in the registry. -/
def propertyTypes : String → Json → TypeExpr :=
  fun name schema => ((child (scope.child name 1) schema).run registry).value

theorem propertyType_frozen (name : String) :
    propertyType (child.frozen registry) properties name scope =
      pure (declaredType (propertyTypes child scope registry) properties name) := by
  unfold propertyType declaredType
  cases properties.get? name <;> rfl

theorem compileDependency_frozen (key : String) (names : List String) :
    compileDependency (child.frozen registry) properties required scope key names =
      pure (dependencyConstraint
        (declaredType (propertyTypes child scope registry) properties) required key names) := by
  unfold compileDependency dependencyConstraint
  simp only [propertyType_frozen, pure_bind, List.mapM_pure, List.isEmpty_map]
  split
  · rfl
  · split <;> rfl

theorem compileDependencies_frozen :
    compileDependencies (child.frozen registry) node properties required scope =
      pure (dependencyConstraints
        (declaredType (propertyTypes child scope registry) properties) node required) := by
  unfold compileDependencies dependencyConstraints
  dsimp only
  rw [mapM_congr_of_mem (g := fun entry => pure (entryConstraint
    (declaredType (propertyTypes child scope registry) properties) required entry.1 entry.2))]
  · rw [List.mapM_pure, pure_bind, List.filterMap_map]
    rfl
  · rintro ⟨key, names⟩ -
    cases names with
    | array items => exact compileDependency_frozen child properties required scope registry key _
    | _ => rfl

theorem compileFields_frozen :
    compileFields (child.frozen registry) properties required scope =
      pure (declaredFields (propertyTypes child scope registry) scope.mode properties
        required) := by
  unfold compileFields declaredFields Child.frozen
  simp only [pure_bind, List.mapM_pure]
  rfl

end Objects

/-- An object, once it has been compiled, is what its layer makes from the types that its
nested schemas have from then on: the constraints between its properties and its fields
hold the same types. -/
theorem compileObject_value {child : Child} (hchild : StableChild child) (node : Node)
    (scope : Scope) (registry : Registry) :
    let object := (compileObject child node scope).run registry
    let extra := ((compileExtra child node scope).run object.enums).value
    object.value =
      if (node.properties?.getD []).isEmpty then
        undeclaredObject (distinctNames node.required) extra
      else
        ((layCondition child node
          (baseFrom (propertyTypes child scope object.enums) scope.mode node extra)
          scope).run object.enums).value := by
  intro object extra
  -- the run is compared with a second one behind it, in which every part is settled
  have hstable := (compileObject_asks node scope).stable hchild
  have hagain : object.value = ((compileObject child node scope).run object.enums).value :=
    ((hstable registry).2 object.enums (Registry.Reaches.refl _)).1.symm
  have hparts := ((compileObject_asks node scope).settledIn_iff hchild).mp
    (hstable.settledIn registry)
  have hconstraints := compileDependencies_asks node (node.properties?.getD []) scope
    (distinctNames node.required)
  have hdependencies : ∀ part ∈ dependenciesParts node (node.properties?.getD []),
      (part.compile child scope).SettledIn object.enums :=
    fun part hpart => hparts part (List.mem_append_left _ hpart)
  have hextra : ∀ part ∈ patternParts node ++ additionalParts node,
      (part.compile child scope).SettledIn object.enums :=
    fun part hpart => hparts part (List.mem_append_right _ (List.mem_append_left _ hpart))
  have hsame := Registry.Reaches.refl object.enums
  rw [hagain, compileObject_eq]
  simp only [Compilation.run_bind]
  rw [(hconstraints.settledIn_iff hchild).mpr hdependencies _ hsame,
    hconstraints.value_frozen hdependencies, compileDependencies_frozen,
    ((compileExtra_asks node scope).settledIn_iff hchild).mpr hextra _ hsame]
  split
  · rfl
  have hfields : ∀ part ∈ fieldParts scope.mode (node.properties?.getD []),
      (part.compile child scope).SettledIn object.enums :=
    fun part hpart => hparts part (fieldParts_subset_objectParts _ _ hpart)
  have hcompiled := compileFields_asks (node.properties?.getD []) scope
    (distinctNames node.required)
  rw [Compilation.run_bind, (hcompiled.settledIn_iff hchild).mpr hfields _ hsame,
    hcompiled.value_frozen hfields, compileFields_frozen]
  rfl

/-- A schema that was compiled once gives the same type in every registry that further
enums lead to, and declares nothing there.  In particular the types that the requirements
between the properties of an object compile ahead of time are those of its fields: the
base of the object is made from one type for each property, the type that the property
has when the object is done. -/
theorem recompilation_stable (schemas : Table (RefOr Json)) (slot : RefOr Json)
    (scope : Scope) (registry : Registry) (calls : List EnumCall) :
    let first := (compile schemas slot scope).run registry
    let later := first.enums.after calls
    (((compile schemas slot scope).run later).value = first.value ∧
      ((compile schemas slot scope).run later).enums = later) ∧
    ∀ (node : Node) (inner : Scope) (before : Registry),
      let child := compileNested schemas
      let object := (compileObject child node inner).run before
      let extra := ((compileExtra child node inner).run object.enums).value
      object.value =
        if (node.properties?.getD []).isEmpty then
          undeclaredObject (distinctNames node.required) extra
        else
          ((layCondition child node
            (baseFrom (propertyTypes child inner object.enums) inner.mode node extra)
            inner).run object.enums).value := by
  intro first later
  have hagain := (compile_stable schemas slot scope registry).2 later ⟨calls, rfl⟩
  refine ⟨hagain, fun node inner before => ?_⟩
  exact compileObject_value (compileNested_stable schemas) node inner before

end OpenApiTypings.Schema
