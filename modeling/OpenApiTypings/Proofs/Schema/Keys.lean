import OpenApiTypings.Proofs.Schema.Composed
import OpenApiTypings.Proofs.Schema.Recompilation
import OpenApiTypings.Proofs.Schema.Recursion
import OpenApiTypings.Proofs.Schema.Requirements
import OpenApiTypings.Proofs.Type.Keys

/-!
# Keys of compiled objects

The keys of the objects that the compiler builds come from tables and from sets of names, with
one exception: a requirement between properties takes them from a list of the document as they
stand.  So a key is declared twice just where a list names a property twice, or the key that
it belongs to.
-/

namespace OpenApiTypings.Schema

open TypeExpr (DistinctKeys)
open Relation (ReflTransGen)

/-! ### Along the calls -/

section Along

variable {schemas : Table (RefOr Json)} {P : Compilation TypeExpr → Prop}

open Classical in
/-- The answers that have the property; the others are replaced by unknown. -/
noncomputable def Answers.only (P : Compilation TypeExpr → Prop) (answers : Answers) : Answers :=
  fun call => if P (answers call) then answers call else pure .unknown

theorem Answers.only_of {answers : Answers} {call : Call} (h : P (answers call)) :
    answers.only P call = answers call :=
  if_pos h

theorem Answers.holds_only (hunknown : P (pure .unknown)) (answers : Answers) (call : Call) :
    P (answers.only P call) := by
  unfold Answers.only
  split
  · assumption
  · exact hunknown

/-- A property that the nodes on the way keep holds of every call on the way. -/
theorem holds_along {start : Call} (hunknown : P (pure .unknown))
    (hexhausted : ∀ event, P (Compilation.note event >>= fun _ => pure .unknown))
    (hcomponent : ∀ name, P (pure (.component .schemas name)))
    (hnode : ∀ node scope, ReflTransGen (Calls schemas) start (.node node scope) →
      ∀ child : Child, (∀ scope schema, P (child scope schema)) →
        P (compileNode child node scope))
    {call : Call} (hcall : ReflTransGen (Calls schemas) start call) :
    P (outcome schemas call) := by
  induction call using (calls_wellFounded schemas).induction with
  | _ call ih =>
    let answers := (outcome schemas).only P
    have hanswers : ∀ callee, P (answers callee) := Answers.holds_only hunknown _
    have hsame : ∀ callee, Calls schemas call callee →
        outcome schemas callee = answers callee := fun callee hcallee =>
      (Answers.only_of (ih callee hcallee (hcall.tail hcallee))).symm
    rw [outcome_eq_step, step_congr hsame]
    cases call with
    | slot slot scope =>
      simp only [step, compileSlotBy]
      split
      · exact hanswers _
      split
      · exact hexhausted _
      split
      · exact hunknown
      split
      · exact hanswers _
      · exact hanswers _
    | reference pointer scope =>
      simp only [step, compileReferenceWith]
      split
      · exact hunknown
      split
      · exact hcomponent _
      split
      · exact hcomponent _
      split
      · exact hexhausted _
      · exact hanswers _
    | nested schema scope =>
      simp only [step, compileNestedBy]
      split
      · exact hunknown
      split
      · exact hunknown
      split
      · exact hanswers _
      split
      · exact hexhausted _
      · exact hanswers _
    | node node scope => exact hnode node scope hcall _ fun scope schema => hanswers _

end Along

/-- A property that the object nodes on the way keep holds of the type of every call on the
way. -/
theorem KeptInTypesWith.ensures_along {distinct : Prop} {allowed : KeyType → Prop}
    {Q : Registry → TypeExpr → Prop} (hQ : KeptInTypesWith distinct allowed Q)
    {schemas : Table (RefOr Json)} {start : Call}
    (hnodes : ∀ node scope, ReflTransGen (Calls schemas) start (.node node scope) →
      node.isObject = true → node.Suits distinct allowed)
    {call : Call} (hcall : ReflTransGen (Calls schemas) start call) :
    (outcome schemas call).Ensures Q := by
  refine holds_along (P := fun m => m.Ensures Q) ?_ ?_ ?_ ?_ hcall
  · exact Compilation.Ensures.pure fun registry => (hQ.composes registry).unknown
  · intro event
    exact Compilation.Ensures.bind
      (Compilation.Ensures.note event (Q := fun _ _ => True) fun _ => trivial)
      fun _ => Compilation.Ensures.pure fun registry _ => (hQ.composes registry).unknown
  · intro name
    exact Compilation.Ensures.pure fun registry => hQ.component registry name
  · intro node scope hnode child hchild
    exact hQ.compileNode hchild node scope (hnodes node scope hnode)

/-! ### The objects of a node -/

theorem keptInTypes_distinctKeys : KeptInTypesWhere True fun _ type => type.DistinctKeys where
  composes _ := TypeExpr.composes_distinctKeys
  enumRef _ _ := nofun
  component _ _ := nofun

/-- A node that is compiled to an object hands down what the object does. -/
theorem below_mem_nodeParts {node : Node} (hobject : node.isObject = true) {mode : Mode}
    {part : Part} (hpart : part ∈ objectParts mode node) : part.below ∈ nodeParts mode node := by
  have hbelow : part.below ∈ (objectParts mode node).map Part.below := List.mem_map_of_mem hpart
  simp only [Node.isObject, Bool.and_eq_true, Bool.not_eq_true', Option.isNone_iff_eq_none]
    at hobject
  obtain ⟨⟨hlisted, hcombinator⟩, htyped⟩ := hobject
  rw [nodeParts, hlisted, shapeParts, hcombinator, if_neg Bool.false_ne_true]
  unfold Node.isTypedObject at htyped
  unfold typedParts
  cases htypes : node.types with
  | nil =>
    rw [htypes] at htyped
    simp only [htyped, if_true]
    exact hbelow
  | cons name more =>
    rw [htypes] at htyped
    refine List.mem_flatMap.mpr ⟨"object", List.contains_iff_mem.mp htyped, ?_⟩
    rw [typeNameParts, if_neg (by decide), if_pos rfl]
    exact hbelow

/-- The constraint that a key brings with it the names has an object with these keys. -/
theorem exists_inside_dependencyConstraint {types : String → TypeExpr} {required : List String}
    {key : String} {names : List String} {constraint : TypeExpr}
    (h : dependencyConstraint types required key names = some constraint) :
    ∃ fields, (TypeExpr.object fields).Inside constraint ∧
      (fields.map Field.name).Perm (key :: names) := by
  let dependents := names.map fun name => Field.required name (types name)
  have hnames : dependents.map Field.name = names := by
    rw [List.map_map]
    exact List.map_id names
  refine ⟨Field.sortByName (Field.required key (types key) :: dependents), ?_,
    ((Field.perm_sortByName _).map Field.name).trans ?_⟩
  · unfold dependencyConstraint at h
    split at h
    · cases h
    · simp only at h
      split at h
      · obtain rfl := Option.some.inj h
        exact .refl
      · obtain rfl := Option.some.inj h
        exact .union (List.mem_cons_of_mem _ (List.mem_singleton.mpr rfl)) .refl
  · rw [List.map_cons, hnames]
    exact List.Perm.refl _

/-! ### Whole runs -/

section Runs

/-- The constraints between the properties of a node, from the scope of the node. -/
def nodeConstraints (child : Child) (node : Node) (scope : Scope) : Compilation (List TypeExpr) :=
  compileDependencies child node (node.properties?.getD []) (distinctNames node.required)
    (scope.deeper 1)

/-- An object type with the fields is built when the call is compiled, from some registry: it
stands in the type that the call gives, in the object of a node, which other declared types may
hide, or in a constraint of that object, which is left out where no property is declared. -/
inductive BuildsObject (schemas : Table (RefOr Json)) : Call → List (Field TypeExpr) → Prop
  | type {call registry fields}
      (h : (TypeExpr.object fields).Inside ((outcome schemas call).run registry).value) :
      BuildsObject schemas call fields
  | object {node scope registry fields} (hobject : node.isObject = true)
      (h : (TypeExpr.object fields).Inside
        ((compileObject (compileNested schemas) node (scope.deeper 1)).run registry).value) :
      BuildsObject schemas (.node node scope) fields
  | constraint {node scope registry constraint fields} (hobject : node.isObject = true)
      (hmem : constraint ∈
        ((nodeConstraints (compileNested schemas) node scope).run registry).value)
      (h : (TypeExpr.object fields).Inside constraint) :
      BuildsObject schemas (.node node scope) fields

variable {schemas : Table (RefOr Json)} {start : Call}

/-- Every call on the way gives a type with distinct keys. -/
theorem distinctKeys_along
    (hnodes : ∀ node scope, ReflTransGen (Calls schemas) start (.node node scope) →
      node.isObject = true → node.DistinctDependencies)
    {call : Call} (hcall : ReflTransGen (Calls schemas) start call) :
    (outcome schemas call).Ensures fun _ type => type.DistinctKeys :=
  keptInTypes_distinctKeys.ensures_along (fun node scope hnode hobject =>
    ⟨fun _ => hnodes node scope hnode hobject, node.printable_of_givesKeys⟩) hcall

/-- An object on the way asks its child only where the types that it gives have distinct
keys, so it is compiled alike with a child that gives no others. -/
theorem exists_child_of_along
    (hnodes : ∀ node scope, ReflTransGen (Calls schemas) start (.node node scope) →
      node.isObject = true → node.DistinctDependencies)
    {node : Node} {scope : Scope} (hcall : ReflTransGen (Calls schemas) start (.node node scope))
    (hobject : node.isObject = true) :
    ∃ child : Child,
      (∀ scope schema, (child scope schema).Ensures fun _ type => type.DistinctKeys) ∧
      ∀ part ∈ objectParts scope.mode node,
        part.compile (compileNested schemas) (scope.deeper 1) =
          part.compile child (scope.deeper 1) := by
  let P : Compilation TypeExpr → Prop := fun m => m.Ensures fun _ type => type.DistinctKeys
  refine ⟨fun scope schema => (outcome schemas).only P (.nested schema scope), ?_, ?_⟩
  · intro scope schema
    exact Answers.holds_only (P := P)
      (Compilation.Ensures.pure fun _ => TypeExpr.composes_distinctKeys.unknown) _ _
  · intro part hpart
    have hcalled := hcall.tail (Calls.part (below_mem_nodeParts hobject hpart))
    rw [Part.scopeIn_below] at hcalled
    exact (Answers.only_of (P := P) (distinctKeys_along hnodes hcalled)).symm

/-- Behind a first run, the constraints of a node are made from one type for each property. -/
theorem exists_nodeConstraints_value (schemas : Table (RefOr Json)) (node : Node) (scope : Scope) :
    ∃ registry types, ((nodeConstraints (compileNested schemas) node scope).run registry).value =
      dependencyConstraints types node (distinctNames node.required) := by
  have hasks := compileDependencies_asks node (node.properties?.getD []) (scope.deeper 1)
    (distinctNames node.required)
  have hparts := (hasks.settledIn_iff (compileNested_stable schemas)).mp
    ((hasks.stable (compileNested_stable schemas)).settledIn Registry.empty)
  have hvalue := hasks.value_frozen hparts
  rw [compileDependencies_frozen] at hvalue
  exact ⟨_, _, hvalue⟩

/-- Each list of names that an object node gives to a key makes an object with these names and
the key. -/
theorem exists_buildsObject (schemas : Table (RefOr Json)) {node : Node} (scope : Scope)
    (hobject : node.isObject = true) {key : String} {items : List Json}
    (hentry : (key, .array items) ∈ Table.sorted (node.dependentRequired?.getD []))
    (hitems : items.filterMap Json.string? ≠ []) :
    ∃ fields, BuildsObject schemas (.node node scope) fields ∧
      (fields.map Field.name).Perm (key :: items.filterMap Json.string?) := by
  obtain ⟨registry, types, hvalue⟩ := exists_nodeConstraints_value schemas node scope
  obtain ⟨constraint, hsome, hmem⟩ :=
    mem_dependencyConstraints types (distinctNames node.required) hentry hitems
  obtain ⟨fields, hinside, hperm⟩ := exists_inside_dependencyConstraint hsome
  exact ⟨fields, .constraint hobject (hvalue ▸ hmem) hinside, hperm⟩

/-- Every object type that is built on the way has distinct keys just if every object node on
the way names, under each key that brings names with it, each property once and the key not
at all. -/
theorem distinct_keys_iff (schemas : Table (RefOr Json)) (start : Call) :
    (∀ call fields, ReflTransGen (Calls schemas) start call → BuildsObject schemas call fields →
      (fields.map Field.name).Nodup) ↔
    ∀ node scope, ReflTransGen (Calls schemas) start (.node node scope) →
      node.isObject = true → node.DistinctDependencies := by
  constructor
  · intro hdistinct node scope hcall hobject key items hentry hitems
    obtain ⟨fields, hbuilds, hperm⟩ := exists_buildsObject schemas scope hobject hentry hitems
    exact hperm.nodup_iff.mp (hdistinct _ fields hcall hbuilds)
  · intro hnodes call fields hcall hbuilds
    cases hbuilds with
    | @type _ registry _ hinside =>
      obtain ⟨-, hvalue⟩ := distinctKeys_along hnodes hcall registry
      exact hvalue _ (Registry.Reaches.refl _) fields hinside
    | @object node scope registry _ hobject hinside =>
      obtain ⟨child, hchild, hparts⟩ := exists_child_of_along hnodes hcall hobject
      rw [(compileObject_asks node (scope.deeper 1)).congr hparts] at hinside
      obtain ⟨-, hvalue⟩ := keptInTypes_distinctKeys.compileObject hchild node (scope.deeper 1)
        (fun _ => hnodes node scope hcall hobject) registry
      exact hvalue _ (Registry.Reaches.refl _) fields hinside
    | @constraint node scope registry constraint _ hobject hmem hinside =>
      obtain ⟨child, hchild, hparts⟩ := exists_child_of_along hnodes hcall hobject
      have hsame : nodeConstraints (compileNested schemas) node scope =
          nodeConstraints child node scope :=
        (compileDependencies_asks node _ (scope.deeper 1) _).congr fun part hpart =>
          hparts part (List.mem_append_left _ hpart)
      rw [hsame] at hmem
      obtain ⟨-, hvalue⟩ := keptInTypes_distinctKeys.compileDependencies hchild node _ _ _
        (fun _ => hnodes node scope hcall hobject) registry
      exact hvalue _ (Registry.Reaches.refl _) constraint hmem fields hinside

/-- A card that brings itself with it is declared twice. -/
theorem not_distinct_keys :
    ¬ ∀ (schemas : Table (RefOr Json)) (slot : RefOr Json) (scope : Scope) (registry : Registry),
      ((compile schemas slot scope).run registry).value.DistinctKeys := by
  intro hdistinct
  let card := Json.object
    [("dependentRequired", .object [("card", .array [.string "card"])]),
      ("properties", .object [("card", .object [("type", .string "string")])])]
  let twice := TypeExpr.object [Field.required "card" .string, Field.required "card" .string]
  have hvalue : ((compile [] (.inline card) (Scope.top .component "")).run Registry.empty).value =
      .intersection [.object [Field.possible "card" .string],
        .union [.object [Field.possible "card" .never], twice]] := rfl
  have hinside : twice.Inside
      ((compile [] (.inline card) (Scope.top .component "")).run Registry.empty).value := by
    rw [hvalue]
    exact .intersection (List.mem_cons_of_mem _ (List.mem_singleton.mpr rfl))
      (.union (List.mem_cons_of_mem _ (List.mem_singleton.mpr rfl)) .refl)
  have hnodup := hdistinct [] (.inline card) (Scope.top .component "") Registry.empty _ hinside
  revert hnodup
  decide

end Runs

end OpenApiTypings.Schema
