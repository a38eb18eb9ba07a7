import OpenApiTypings.Proofs.Lists
import OpenApiTypings.Proofs.Schema.Condition
import OpenApiTypings.Proofs.Schema.Values

/-!
# The schemas that a node hands down

Which nested schemas a node asks its child for, in which order, and how far below the
node each of them stands depends on the node and the mode alone: not on the registry, not
on the depth or the hint, and not on the types that come back.  `nodeParts` lists them.

`compileNode_eq` says that compiling a node is nothing but reading its literals,
compiling the parts in order, and making one type from the answers.
-/

namespace OpenApiTypings

namespace Compilation

/-- What comes after a computation matters only at the values that it gives. -/
theorem bind_congr_of_value {m : Compilation α} {f g : α → Compilation β}
    (h : ∀ registry, f (m.run registry).value = g (m.run registry).value) :
    m >>= f = m >>= g := by
  funext registry
  show (m >>= f).run registry = (m >>= g).run registry
  rw [run_bind, run_bind, h registry]

theorem length_mapM (g : α → Compilation β) (xs : List α) (registry : Registry) :
    ((xs.mapM g).run registry).value.length = xs.length := by
  induction xs generalizing registry with
  | nil => rfl
  | cons x rest ih =>
    rw [List.mapM_cons]
    simp only [run_bind, run_pure, List.length_cons]
    rw [ih]

end Compilation

namespace Schema

/-! ### Parts -/

/-- A schema nested in a node: how many levels it stands below the scope of the node, by
which segment its hint is longer, and the schema itself. -/
structure Part where
  step : Nat
  segment : String
  schema : Json

namespace Part

def scopeIn (part : Part) (scope : Scope) : Scope := scope.child part.segment part.step

def compile (child : Child) (scope : Scope) (part : Part) : Compilation TypeExpr :=
  child (part.scopeIn scope) part.schema

/-- The part, seen from one level above. -/
def below (part : Part) : Part := { part with step := part.step + 1 }

theorem scopeIn_below (part : Part) (scope : Scope) :
    part.below.scopeIn scope = part.scopeIn (scope.deeper 1) := by
  simp only [scopeIn, below, Scope.child, Scope.deeper]
  rw [Nat.add_right_comm, Nat.add_assoc]

end Part

/-- The layer asks its child for the parts, in order, and makes its value from the answers
alone; that value has the property whatever the answers are. -/
def AsksFor (scope : Scope) (layer : Child → Compilation α) (parts : List Part)
    (P : α → Prop) : Prop :=
  ∃ make : List TypeExpr → α, (∀ answers, P (make answers)) ∧
    ∀ child, layer child = do return make (← parts.mapM (Part.compile child scope))

namespace AsksFor

variable {scope : Scope} {layer : Child → Compilation α} {next : Child → α → Compilation β}
  {parts more : List Part} {P P' : α → Prop} {Q : β → Prop}

theorem pure {a : α} (ha : P a) : AsksFor scope (fun _ => Pure.pure a) [] P :=
  ⟨fun _ => a, fun _ => ha, fun _ => by rw [List.mapM_nil, pure_bind]⟩

theorem child (segment : String) (step : Nat) (schema : Json) :
    AsksFor scope (fun child => child (scope.child segment step) schema)
      [⟨step, segment, schema⟩] fun _ => True := by
  refine ⟨fun answers => answers.headD .unknown, fun _ => trivial, fun child => ?_⟩
  simp only [List.mapM_cons, List.mapM_nil, bind_assoc, pure_bind, List.headD_cons, bind_pure]
  rfl

theorem mono (h : AsksFor scope layer parts P) (hP : ∀ a, P a → P' a) :
    AsksFor scope layer parts P' := by
  obtain ⟨make, hmake, hlayer⟩ := h
  exact ⟨make, fun answers => hP _ (hmake answers), hlayer⟩

/-- A layer depends on its child at the parts that it asks for. -/
theorem congr (h : AsksFor scope layer parts P) {child child' : Child}
    (hparts : ∀ part ∈ parts, part.compile child scope = part.compile child' scope) :
    layer child = layer child' := by
  obtain ⟨make, -, hlayer⟩ := h
  have hanswers : parts.mapM (Part.compile child scope) = parts.mapM (Part.compile child' scope) :=
    mapM_congr_of_mem hparts
  rw [hlayer child, hlayer child', hanswers]

theorem bind (h : AsksFor scope layer parts P)
    (hnext : ∀ a, P a → AsksFor scope (fun child => next child a) more Q) :
    AsksFor scope (fun child => layer child >>= next child) (parts ++ more) Q := by
  obtain ⟨make, hmake, hlayer⟩ := h
  choose makeNext hmakeNext hnext using hnext
  refine ⟨fun answers => makeNext (make (answers.take parts.length)) (hmake _)
    (answers.drop parts.length), fun answers => hmakeNext _ _ _, fun child => ?_⟩
  show layer child >>= next child = _
  rw [hlayer, List.mapM_append]
  simp only [bind_assoc, pure_bind]
  -- the answers are cut where those of the first layer end
  refine Compilation.bind_congr_of_value fun registry => ?_
  have hlength := Compilation.length_mapM (Part.compile child scope) parts registry
  rw [show next child (make _) = _ from hnext _ (hmake _) child]
  simp only [List.take_append, List.drop_append, hlength, Nat.sub_self, List.take_zero,
    List.drop_zero, List.append_nil, List.take_of_length_le (Nat.le_of_eq hlength),
    List.drop_of_length_le (Nat.le_of_eq hlength), List.nil_append]

theorem last (h : AsksFor scope layer parts P)
    (hnext : ∀ a, P a → AsksFor scope (fun child => next child a) [] Q) :
    AsksFor scope (fun child => layer child >>= next child) parts Q := by
  have hbind := bind h hnext
  rwa [List.append_nil] at hbind

/-- A list of layers asks for the parts of each of them; there is a value for each. -/
theorem mapM {ι : Type} {layers : ι → Child → Compilation α} {partsOf : ι → List Part}
    {xs : List ι} (h : ∀ x ∈ xs, AsksFor scope (layers x) (partsOf x) fun _ => True) :
    AsksFor scope (fun child => xs.mapM fun x => layers x child) (xs.flatMap partsOf)
      fun values => values.isEmpty = xs.isEmpty := by
  induction xs with
  | nil =>
    simp only [List.mapM_nil, List.flatMap_nil]
    exact pure rfl
  | cons x rest ih =>
    simp only [List.mapM_cons, List.flatMap_cons]
    refine bind (h x (List.mem_cons_self ..)) fun value _ => ?_
    exact last (ih fun x' hx' => h x' (List.mem_cons_of_mem _ hx')) fun values _ => pure rfl

/-- What a layer asks for one level below the node, the node asks for one step further. -/
theorem below (h : AsksFor (scope.deeper 1) layer parts P) :
    AsksFor scope layer (parts.map Part.below) P := by
  obtain ⟨make, hmake, hlayer⟩ := h
  refine ⟨make, hmake, fun child => ?_⟩
  have hparts : (parts.map Part.below).mapM (Part.compile child scope) =
      parts.mapM (Part.compile child (scope.deeper 1)) := by
    rw [List.mapM_map]
    congr 1
    funext part
    rw [Function.comp_apply, Part.compile, Part.scopeIn_below]
    rfl
  rw [hlayer, hparts]

end AsksFor

/-! ### Objects -/

/-- The declared property of a name. -/
def propertyParts (properties : Table Json) (name : String) : List Part :=
  match properties.get? name with
  | some schema => [⟨1, name, schema⟩]
  | none => []

/-- The properties that a key brings with it, and then the key. -/
def dependencyParts (properties : Table Json) (key : String) (names : List String) :
    List Part :=
  names.flatMap (propertyParts properties) ++
    if names.isEmpty then [] else propertyParts properties key

/-- The properties of all requirements between properties. -/
def dependenciesParts (node : Node) (properties : Table Json) : List Part :=
  (Table.sorted (node.dependentRequired?.getD [])).flatMap fun (key, names) =>
    match names with
    | .array items => dependencyParts properties key (items.filterMap Json.string?)
    | _ => []

def patternParts (node : Node) : List Part :=
  (Table.sorted (node.patternProperties?.getD [])).zipIdx.flatMap fun ((_, schema), i) =>
    match schema with
    | .object _ => [⟨1, "Pattern" ++ toString (i + 1), schema⟩]
    | _ => []

def additionalParts (node : Node) : List Part :=
  match node.additionalProperties? with
  | some (.object fields) => [⟨1, "AdditionalProperties", .object fields⟩]
  | _ => []

/-- The declared properties that are kept on the side of the wire. -/
def fieldParts (mode : Mode) (properties : Table Json) : List Part :=
  ((Table.sorted properties).filter fun entry => includesProperty mode entry.2).map
    fun (name, schema) => ⟨1, name, schema⟩

def outcomeParts (segment : String) : Option Json → List Part
  | some schema => [⟨1, segment, schema⟩]
  | none => []

def outcomesParts (node : Node) : List Part :=
  outcomeParts "Then" (node.get? "then") ++ outcomeParts "Else" (node.get? "else")

/-- The outcomes of a condition; the condition itself when neither an outcome nor a
residue stands for it. -/
def conditionParts (node : Node) (properties : Table Json) : List Part :=
  outcomesParts node ++
    if (outcomesParts node).isEmpty && (residue node properties).isEmpty then
      outcomeParts "If" (node.get? "if")
    else []

/-- What an object hands down, from the scope of the object. -/
def objectParts (mode : Mode) (node : Node) : List Part :=
  let properties := node.properties?.getD []
  dependenciesParts node properties ++ ((patternParts node ++ additionalParts node) ++
    if properties.isEmpty then []
    else fieldParts mode properties ++
      if hasCondition node then conditionParts node properties else [])

theorem fieldParts_subset_objectParts (mode : Mode) (node : Node) :
    fieldParts mode (node.properties?.getD []) ⊆ objectParts mode node := by
  intro part hpart
  unfold objectParts
  refine List.mem_append_right _ (List.mem_append_right _ ?_)
  split
  · rename_i hempty
    rw [List.isEmpty_iff.mp hempty] at hpart
    cases hpart
  · exact List.mem_append_left _ hpart

section Objects

variable (node : Node) (properties : Table Json) (scope : Scope)

theorem propertyType_asks (name : String) :
    AsksFor scope (fun child => propertyType child properties name scope)
      (propertyParts properties name) fun _ => True := by
  unfold propertyType propertyParts
  cases properties.get? name with
  | some schema => exact AsksFor.child name 1 schema
  | none => exact AsksFor.pure trivial

theorem compileDependency_asks (required : List String) (key : String)
    (names : List String) :
    AsksFor scope (fun child => compileDependency child properties required scope key names)
      (dependencyParts properties key names) fun _ => True := by
  unfold compileDependency dependencyParts
  refine AsksFor.bind (AsksFor.mapM fun name _ => AsksFor.last
    (propertyType_asks properties scope name) fun _ _ => AsksFor.pure trivial) ?_
  intro dependents hempty
  rw [hempty]
  split
  · exact AsksFor.pure trivial
  · refine AsksFor.last (propertyType_asks properties scope key) fun keyType _ => ?_
    split
    · exact AsksFor.pure trivial
    · exact AsksFor.pure trivial

theorem compileDependencies_asks (required : List String) :
    AsksFor scope
      (fun child => compileDependencies child node properties required scope)
      (dependenciesParts node properties) fun _ => True := by
  unfold compileDependencies dependenciesParts
  refine AsksFor.last (AsksFor.mapM ?_) fun _ _ => AsksFor.pure trivial
  rintro ⟨key, names⟩ -
  cases names with
  | array items => exact compileDependency_asks properties scope required key _
  | _ => exact AsksFor.pure trivial

theorem compilePatterns_asks :
    AsksFor scope (fun child => compilePatterns child node scope) (patternParts node)
      fun _ => True := by
  unfold compilePatterns patternParts
  refine AsksFor.last (AsksFor.mapM ?_) fun _ _ => AsksFor.pure trivial
  rintro ⟨⟨pattern, schema⟩, i⟩ -
  cases schema with
  | object fields =>
    exact AsksFor.last (AsksFor.child _ 1 (.object fields)) fun _ _ => AsksFor.pure trivial
  | _ => exact AsksFor.pure trivial

theorem compileExtra_asks :
    AsksFor scope (fun child => compileExtra child node scope)
      (patternParts node ++ additionalParts node) fun _ => True := by
  unfold compileExtra additionalParts
  refine AsksFor.bind (compilePatterns_asks node scope) fun patterns _ => ?_
  cases node.additionalProperties? with
  | none => exact AsksFor.pure trivial
  | some value =>
    cases value with
    | bool b => cases b <;> exact AsksFor.pure trivial
    | object fields =>
      exact AsksFor.last (AsksFor.child _ 1 (.object fields)) fun _ _ => AsksFor.pure trivial
    | _ => exact AsksFor.pure trivial

theorem compileFields_asks (required : List String) :
    AsksFor scope (fun child => compileFields child properties required scope)
      (fieldParts scope.mode properties) fun _ => True := by
  unfold compileFields fieldParts
  rw [List.map_eq_flatMap]
  refine (AsksFor.mapM fun entry _ => ?_).mono fun _ _ => trivial
  exact AsksFor.last (AsksFor.child entry.1 1 entry.2) fun _ _ => AsksFor.pure trivial

/-! ### Conditions -/

theorem compileOutcome_asks (segment : String) (make : TypeExpr → TypeExpr)
    (absent : List TypeExpr) (schema? : Option Json) :
    AsksFor scope (fun child => compileOutcome child scope segment make absent schema?)
      (outcomeParts segment schema?)
      fun types => types = [] ↔ outcomeParts segment schema? = [] ∧ absent = [] := by
  cases schema? with
  | some schema =>
    refine AsksFor.last (AsksFor.child segment 1 schema) fun _ _ => AsksFor.pure ?_
    exact ⟨nofun, fun h => nomatch h.1⟩
  | none => exact AsksFor.pure ⟨fun h => ⟨rfl, h⟩, fun h => h.2⟩

theorem compileDiscriminated_asks (base : TypeExpr) (name : String) (pinned : List Literal) :
    AsksFor scope
      (fun child => compileDiscriminated child node properties base scope name pinned)
      (outcomesParts node)
      fun types => types = [] ↔ outcomesParts node = [] ∧
        (((properties.get? name).bind literalValues?).getD []).filter
          (fun literal => !pinned.contains literal) = [] := by
  simp only [compileDiscriminated_eq]
  refine AsksFor.bind (compileOutcome_asks scope "Then" _ [] _) fun thenPart hthen => ?_
  refine AsksFor.last (compileOutcome_asks scope "Else" _ _ _) fun elsePart helse => ?_
  refine AsksFor.pure ?_
  rw [outcomesParts, List.append_eq_nil_iff, List.append_eq_nil_iff, hthen, helse]
  simp only [and_true, ite_eq_left_iff, List.isEmpty_iff, reduceCtorEq, imp_false, not_not,
    and_assoc]

theorem compileBranches_asks :
    AsksFor scope (fun child => compileBranches child node scope)
      (outcomesParts node ++
        if (outcomesParts node).isEmpty then outcomeParts "If" (node.get? "if") else [])
      fun _ => True := by
  simp only [compileBranches_eq]
  rw [outcomesParts, List.append_assoc]
  refine AsksFor.bind (compileOutcome_asks scope "Then" id [] _) fun thenPart hthen => ?_
  refine AsksFor.bind (compileOutcome_asks scope "Else" id [] _) fun elsePart helse => ?_
  have hempty : thenPart ++ elsePart = [] ↔ outcomesParts node = [] := by
    rw [outcomesParts, List.append_eq_nil_iff, List.append_eq_nil_iff, hthen, helse]
    simp only [and_true]
  rw [← outcomesParts]
  -- the condition itself is asked for only where there is no outcome
  by_cases houtcomes : outcomesParts node = []
  · rw [hempty.mpr houtcomes, houtcomes]
    cases node.get? "if" with
    | some schema =>
      exact (compileOutcome_asks scope "If" id [] (some schema)).mono fun _ _ => trivial
    | none => exact AsksFor.pure trivial
  · obtain ⟨first, more, hparts⟩ := List.exists_cons_of_ne_nil (mt hempty.mp houtcomes)
    rw [hparts, if_neg (mt List.isEmpty_iff.mp houtcomes)]
    exact AsksFor.pure trivial

theorem settleCondition_asks_of_ne_nil (base : TypeExpr) {types : List TypeExpr}
    (htypes : types ≠ []) :
    AsksFor scope (fun child => settleCondition child node base scope types) []
      fun _ => True := by
  unfold settleCondition
  split
  · exact AsksFor.pure trivial
  · exact AsksFor.pure trivial
  · exact absurd rfl htypes

theorem settleCondition_nil_asks (base : TypeExpr) :
    AsksFor scope (fun child => settleCondition child node base scope [])
      (outcomesParts node ++
        if (outcomesParts node).isEmpty then outcomeParts "If" (node.get? "if") else [])
      fun _ => True := by
  unfold settleCondition
  refine AsksFor.last (compileBranches_asks node scope) fun parts _ => ?_
  split <;> exact AsksFor.pure trivial

theorem compileConditional_asks (base : TypeExpr) :
    AsksFor scope (fun child => compileConditional child node properties base scope)
      (conditionParts node properties) fun _ => True := by
  simp only [compileConditional_eq]
  unfold conditionParts
  cases hpinned : (node.get? "if").bind pinnedProperty? with
  | none =>
    rw [residue_of_not_pinned hpinned, List.isEmpty_nil, Bool.and_true]
    simp only [pure_bind]
    exact settleCondition_nil_asks node scope base
  | some found =>
    obtain ⟨name, pinned⟩ := found
    rw [residue_of_pinned hpinned]
    refine AsksFor.bind (compileDiscriminated_asks node properties scope base name pinned) ?_
    intro types htypes
    -- a condition without branches is read once more, as one that pins nothing
    by_cases hnil : types = []
    · obtain ⟨houtcomes, hresidue⟩ := htypes.mp hnil
      have hsettle := settleCondition_nil_asks node scope base
      rw [houtcomes] at hsettle
      rw [hnil, houtcomes, hresidue]
      exact hsettle
    · have hnot := mt htypes.mpr hnil
      rw [← List.isEmpty_iff, ← List.isEmpty_iff, ← Bool.and_eq_true] at hnot
      rw [if_neg hnot]
      exact settleCondition_asks_of_ne_nil node scope base hnil

/-! ### Whole objects -/

theorem layCondition_asks (base : TypeExpr) :
    AsksFor scope (fun child => layCondition child node base scope)
      (if hasCondition node then conditionParts node (node.properties?.getD []) else [])
      fun _ => True := by
  unfold layCondition
  split
  · exact compileConditional_asks node _ scope base
  · exact AsksFor.pure trivial

theorem compileObject_asks :
    AsksFor scope (fun child => compileObject child node scope)
      (objectParts scope.mode node) fun _ => True := by
  simp only [compileObject_eq]
  unfold objectParts
  refine AsksFor.bind (compileDependencies_asks node _ scope _) fun constraints _ => ?_
  refine AsksFor.bind (compileExtra_asks node scope) fun extra _ => ?_
  split
  · exact AsksFor.pure trivial
  · exact AsksFor.bind (compileFields_asks _ scope _) fun fields _ => layCondition_asks node scope _

end Objects

/-! ### Nodes -/

def itemParts (node : Node) : List Part :=
  match node.items? with
  | some items => [⟨1, "Item", items⟩]
  | none => []

/-- What a node hands down for one declared type name. -/
def typeNameParts (mode : Mode) (node : Node) (name : String) : List Part :=
  if name = "array" then itemParts node
  else if name = "object" then (objectParts mode node).map Part.below
  else []

/-- What a node hands down for its declared types; without any, for what its other
keywords suggest. -/
def typedParts (mode : Mode) (node : Node) : List Part :=
  match node.types with
  | [] =>
      if looksLikeObject node then (objectParts mode node).map Part.below
      else itemParts node
  | names => names.flatMap (typeNameParts mode node)

/-- What a node without literals hands down: the branches of its combinator, or what its
types ask for. -/
def shapeParts (mode : Mode) (node : Node) : List Part :=
  match combinator? node with
  | some (c, branches) =>
      branches.zipIdx.map fun (branch, i) => ⟨1, c.segment ++ toString (i + 1), branch⟩
  | none => typedParts mode node

/-- Literals decide the type of the node: it has a constant with a literal, or listed
values. -/
def Node.isListed (node : Node) : Bool :=
  (node.const?.bind Literal.ofJson?).isSome || node.enumValues?.isSome

/-- The schemas that a node hands down, in order. -/
def nodeParts (mode : Mode) (node : Node) : List Part :=
  if node.isListed then [] else shapeParts mode node

section Nodes

variable (node : Node) (scope : Scope)

theorem compileArray_asks :
    AsksFor scope (fun child => compileArray child node scope) (itemParts node)
      fun _ => True := by
  unfold compileArray itemParts
  cases node.items? with
  | some items => exact AsksFor.last (AsksFor.child "Item" 1 items) fun _ _ => AsksFor.pure trivial
  | none => exact AsksFor.pure trivial

theorem compileTypeName_asks (name : String) :
    AsksFor scope (fun child => compileTypeName child node scope name)
      (typeNameParts scope.mode node name) fun _ => True := by
  unfold compileTypeName typeNameParts
  by_cases harray : name = "array"
  · subst harray
    exact compileArray_asks node scope
  by_cases hobject : name = "object"
  · subst hobject
    exact (compileObject_asks node (scope.deeper 1)).below
  · simp only [if_neg harray, if_neg hobject]
    repeat' split
    all_goals exact AsksFor.pure trivial

theorem compileUntyped_asks :
    AsksFor scope (fun child => compileUntyped child node scope)
      (if looksLikeObject node then (objectParts scope.mode node).map Part.below
        else itemParts node)
      fun _ => True := by
  unfold compileUntyped
  split
  · exact AsksFor.last (compileObject_asks node (scope.deeper 1)).below fun _ _ =>
      AsksFor.pure trivial
  split
  · exact AsksFor.last (compileArray_asks node scope) fun _ _ => AsksFor.pure trivial
  · rename_i hitems
    rw [Option.isSome_iff_ne_none, not_not] at hitems
    unfold itemParts
    rw [hitems]
    simp only [pure_bind]
    exact AsksFor.pure trivial

theorem compileTyped_asks :
    AsksFor scope (fun child => compileTyped child node scope) (typedParts scope.mode node)
      fun _ => True := by
  unfold compileTyped typedParts
  cases node.types with
  | nil => exact compileUntyped_asks node scope
  | cons name more =>
    cases more with
    | nil =>
      show AsksFor scope _ ([name].flatMap (typeNameParts scope.mode node)) _
      rw [List.flatMap_singleton]
      exact AsksFor.last (compileTypeName_asks node scope name) fun _ _ => AsksFor.pure trivial
    | cons second others =>
      exact AsksFor.last (AsksFor.mapM fun name _ => compileTypeName_asks node scope name)
        fun _ _ => AsksFor.pure trivial

/-- The type of a node without literals. -/
def compileShape (child : Child) (node : Node) (scope : Scope) : Compilation TypeExpr := do
  match ← compileCombinator child node scope with
  | some type => return type
  | none => compileTyped child node scope

theorem compileShape_asks :
    AsksFor scope (fun child => compileShape child node scope) (shapeParts scope.mode node)
      fun _ => True := by
  unfold compileShape compileCombinator shapeParts
  cases combinator? node with
  | none =>
    simp only [pure_bind]
    exact compileTyped_asks node scope
  | some found =>
    obtain ⟨c, branches⟩ := found
    simp only [bind_assoc, pure_bind]
    rw [List.map_eq_flatMap]
    exact AsksFor.last (AsksFor.mapM fun indexed _ => AsksFor.child _ 1 indexed.1)
      fun _ _ => AsksFor.pure trivial

/-! ### Literals -/

theorem ofValues?_eq_none_of_literal {value : Json} (h : Literal.ofJson? value = none) :
    EnumMember.ofValues? [value] = none := by
  cases value with
  | array items => rfl
  | object fields => rfl
  | _ => cases h

theorem emitEnum_value_isSome (hint : String) (values : List Json) (nullable : Bool)
    (registry : Registry) :
    ((emitEnum hint values nullable).run registry).value.isSome =
      (EnumMember.ofValues? values).isSome := by
  unfold emitEnum
  cases EnumMember.ofValues? values <;> rfl

theorem compileListed_value_isSome (registry : Registry) :
    ((compileListed node scope).run registry).value.isSome = node.enumValues?.isSome := by
  unfold compileListed
  cases node.enumValues? with
  | none => rfl
  | some values =>
    rw [Compilation.run_bind]
    cases ((emitEnum scope.hint values node.nullable).run registry).value with
    | some type => rfl
    | none => cases values.mapM Literal.ofJson? <;> rfl

/-- A node with literals, and no other, is given its type by them. -/
theorem compileLiteral_value_isSome (registry : Registry) :
    ((compileLiteral node scope).run registry).value.isSome = node.isListed := by
  unfold compileLiteral Node.isListed
  cases node.const? with
  | none => exact compileListed_value_isSome node scope registry
  | some value =>
    rw [Compilation.run_bind, Option.bind_some]
    have hemitted := emitEnum_value_isSome scope.hint [value] node.nullable registry
    cases hliteral : Literal.ofJson? value with
    | some literal =>
      cases ((emitEnum scope.hint [value] node.nullable).run registry).value <;> rfl
    | none =>
      rw [ofValues?_eq_none_of_literal hliteral, Option.isSome_none,
        Option.isSome_eq_false_iff, Option.isNone_iff_eq_none] at hemitted
      simp only [hemitted]
      exact compileListed_value_isSome node scope _

/-! ### Whole nodes -/

/-- A node is compiled by reading its literals, compiling its parts in order, and making
one type from the answers. -/
theorem compileNode_eq :
    ∃ make : List TypeExpr → TypeExpr, ∀ child, compileNode child node scope = do
      let listed? ← compileLiteral node scope
      let answers ← (nodeParts scope.mode node).mapM (Part.compile child scope)
      return listed?.getD (make answers) := by
  obtain ⟨make, -, hshape⟩ := compileShape_asks node scope
  refine ⟨make, fun child => ?_⟩
  have hnode : compileNode child node scope = compileLiteral node scope >>= fun listed? =>
      match listed? with
      | some type => pure type
      | none => compileShape child node scope := rfl
  rw [hnode]
  refine Compilation.bind_congr_of_value fun registry => ?_
  -- the node alone says whether its literals give the type, whatever the registry
  have hlisted := compileLiteral_value_isSome node scope registry
  unfold nodeParts
  cases hvalue : ((compileLiteral node scope).run registry).value with
  | some type =>
    rw [hvalue, Option.isSome_some] at hlisted
    rw [if_pos hlisted.symm, List.mapM_nil, pure_bind]
    rfl
  | none =>
    rw [hvalue, Option.isSome_none] at hlisted
    rw [if_neg (by rw [← hlisted]; exact Bool.false_ne_true)]
    exact hshape child

/-- A node depends on its child at its own parts alone. -/
theorem compileNode_congr {child child' : Child}
    (h : ∀ part ∈ nodeParts scope.mode node,
      part.compile child scope = part.compile child' scope) :
    compileNode child node scope = compileNode child' node scope := by
  obtain ⟨make, heq⟩ := compileNode_eq node scope
  have hparts : (nodeParts scope.mode node).mapM (Part.compile child scope) =
      (nodeParts scope.mode node).mapM (Part.compile child' scope) := mapM_congr_of_mem h
  rw [heq child, heq child', hparts]

end Nodes

/-! ### Parts of the two sides of the wire -/

theorem includesProperty_component (schema : Json) :
    includesProperty .component schema = true := by
  unfold includesProperty
  cases Node.ofJson? schema <;> rfl

theorem objectParts_subset_component (mode : Mode) (node : Node) :
    objectParts mode node ⊆ objectParts .component node := by
  unfold objectParts
  refine append_subset_append (List.Subset.refl _) (append_subset_append
    (List.Subset.refl _) ?_)
  split
  · exact List.Subset.refl _
  refine append_subset_append (List.map_subset _ ?_) (List.Subset.refl _)
  -- a component keeps every property
  intro entry hentry
  exact List.mem_filter.mpr ⟨(List.mem_filter.mp hentry).1, includesProperty_component entry.2⟩

/-- On either side of the wire a node hands down no more than it does in a component. -/
theorem nodeParts_subset_component (mode : Mode) (node : Node) :
    nodeParts mode node ⊆ nodeParts .component node := by
  have hobject : (objectParts mode node).map Part.below ⊆
      (objectParts .component node).map Part.below :=
    List.map_subset _ (objectParts_subset_component mode node)
  have hname : ∀ name, typeNameParts mode node name ⊆ typeNameParts .component node name := by
    intro name
    unfold typeNameParts
    split
    · exact List.Subset.refl _
    split
    · exact hobject
    · exact List.Subset.refl _
  unfold nodeParts shapeParts typedParts
  split
  · exact List.Subset.refl _
  split
  · exact List.Subset.refl _
  split
  · split
    · exact hobject
    · exact List.Subset.refl _
  · intro part hpart
    obtain ⟨name, hmem, hpart⟩ := List.mem_flatMap.mp hpart
    exact List.mem_flatMap.mpr ⟨name, hmem, hname name hpart⟩

end Schema

end OpenApiTypings
