import OpenApiTypings.Proofs.Schema.Condition
import OpenApiTypings.Proofs.Type.Denotation

/-!
# Discriminated conditions

A condition that pins one property to literals is compiled to branches over the type of the
object, and each branch pins the property to the literals that belong to it, or leaves it
alone.  A literal is kept when some branch has room for it.

The literals that the condition leaves over are always kept.  Those that it pins itself are
kept as long as the node says what then holds, or nothing is left over; `conditional_keeps_iff`
says that this is exact.
-/

namespace OpenApiTypings.Schema

open TypeExpr

/-- A branch of a condition: the literals that it pins the property to, none where it leaves
the property alone, and the type that is laid over it, if any. -/
structure Branch where
  pins : List Literal
  outcome : Option TypeExpr

namespace Branch

def type (base : TypeExpr) (name : String) (branch : Branch) : TypeExpr :=
  match branch.outcome with
  | none => narrow base name branch.pins
  | some outcome => .intersection [narrow base name branch.pins, outcome]

/-- The branch has room for objects whose property has the literal. -/
def Keeps (branch : Branch) (literal : Literal) : Prop :=
  branch.pins = [] ∨ literal ∈ branch.pins

end Branch

def declaredLiterals (properties : Table Json) (name : String) : List Literal :=
  ((properties.get? name).bind literalValues?).getD []

/-- The type comes from what the node says of one outcome of its condition, or from the
condition itself. -/
def IsOutcome (child : Child) (node : Node) (scope : Scope) (type : TypeExpr) : Prop :=
  ∃ keyword segment schema registry,
    (keyword, segment) ∈ [("then", "Then"), ("else", "Else"), ("if", "If")] ∧
      node.get? keyword = some schema ∧
        type = ((child (scope.child segment 1) schema).run registry).value

/-- The type is that of the branches over the type of the object: of the only one, or the
union of several. -/
structure HasBranches (child : Child) (node : Node) (scope : Scope) (base : TypeExpr)
    (name : String) (type : TypeExpr) (branches : List Branch) : Prop where
  type_eq : type = .unionOf (branches.map (Branch.type base name))
  nonempty : branches ≠ []
  outcomes : ∀ branch ∈ branches, ∀ type ∈ branch.outcome, IsOutcome child node scope type

/-! ### Objects of a branch -/

section Objects

variable {lookups : Section → String → Json → Prop} {registry : Registry} {base : TypeExpr}
  {name : String} {literal : Literal} {v x : Json}

theorem denotes_narrow {pins : List Literal} (hbase : base.Denotes lookups registry v)
    (hfield : v.field? name = some x) (hx : literal.Denotes x)
    (hkeeps : pins = [] ∨ literal ∈ pins) :
    (narrow base name pins).Denotes lookups registry v := by
  unfold narrow
  split
  · exact hbase
  · rename_i hpins
    have hliteral : literal ∈ pins := by
      rcases hkeeps with rfl | hmem
      · exact absurd rfl hpins
      · exact hmem
    have hobject : v.IsObject := by
      cases v with
      | object fields => exact ⟨fields, rfl⟩
      | _ => cases hfield
    have hvalues : (unionOf (pins.map .literal)).Denotes lookups registry x :=
      denotes_unionOf (List.mem_map_of_mem hliteral) hx
    refine denotes_intersection_pair.mpr ⟨hbase, denotes_objectOf.mpr ⟨hobject, ?_⟩⟩
    intro f hf
    obtain rfl := List.mem_singleton.mp hf
    refine ⟨fun _ => ⟨x, hfield⟩, fun y hy => ?_⟩
    obtain rfl : x = y := Option.some.inj (hfield.symm.trans hy)
    exact hvalues

theorem Branch.Keeps.denotes {branch : Branch} (h : branch.Keeps literal)
    (hbase : base.Denotes lookups registry v) (hfield : v.field? name = some x)
    (hx : literal.Denotes x)
    (houtcome : ∀ type ∈ branch.outcome, type.Denotes lookups registry v) :
    (branch.type base name).Denotes lookups registry v := by
  have hnarrow := denotes_narrow hbase hfield hx h
  obtain ⟨pins, outcome⟩ := branch
  cases outcome with
  | none => exact hnarrow
  | some outcome => exact denotes_intersection_pair.mpr ⟨hnarrow, houtcome outcome rfl⟩

end Objects

/-! ### Pins of a branch -/

section Pins

variable {base : TypeExpr} {name : String} {pins pins' : List Literal}

theorem unionOf_literal_injective (hpins : pins ≠ []) (hpins' : pins' ≠ [])
    (h : unionOf (pins.map .literal) = unionOf (pins'.map .literal)) : pins = pins' := by
  match pins, pins' with
  | [], _ => exact absurd rfl hpins
  | _, [] => exact absurd rfl hpins'
  | [l], [l'] => simpa [unionOf] using h
  | [l], l' :: m' :: more' => cases h
  | l :: m :: more, [l'] => cases h
  | l :: m :: more, l' :: m' :: more' =>
    simp only [List.map_cons, unionOf, union.injEq, List.cons.injEq, literal.injEq] at h
    obtain ⟨rfl, rfl, hmore⟩ := h
    rw [List.map_injective_iff.mpr (fun _ _ hl => literal.inj hl) hmore]

/-- A type is no part of itself. -/
theorem ne_narrow_of_ne_nil (hpins : pins ≠ []) : base ≠ narrow base name pins := by
  intro h
  have hsize := congrArg sizeOf h
  rw [narrow, if_neg (by simpa using hpins)] at hsize
  simp at hsize
  omega

theorem narrow_injective (h : narrow base name pins = narrow base name pins') : pins = pins' := by
  by_cases hpins : pins = []
  · by_cases hpins' : pins' = []
    · rw [hpins, hpins']
    · subst hpins
      exact absurd h (ne_narrow_of_ne_nil hpins')
  · by_cases hpins' : pins' = []
    · subst hpins'
      exact absurd h.symm (ne_narrow_of_ne_nil hpins)
    · rw [narrow, narrow, if_neg (by simpa using hpins), if_neg (by simpa using hpins')] at h
      simp only [intersection.injEq, List.cons.injEq, and_true, true_and] at h
      apply unionOf_literal_injective hpins hpins'
      simpa [objectOf, Field.sortByName, Field.insertByName, Field.required] using h

/-- The pins of a branch can be read off its type when something is laid over them. -/
theorem Branch.pins_eq_of_type_eq {branch : Branch} {outcome : TypeExpr} (hpins : pins ≠ [])
    (h : branch.type base name = .intersection [narrow base name pins, outcome]) :
    branch.pins = pins := by
  obtain ⟨own, laid⟩ := branch
  have hpinned : narrow base name pins = .intersection
      [base, objectOf [Field.required name (unionOf (pins.map .literal))]] :=
    if_neg (by simpa using hpins)
  cases laid with
  | some laid =>
    simp only [type, intersection.injEq, List.cons.injEq, and_true] at h
    exact narrow_injective h.1
  | none =>
    -- a type that has the base in it, pinned, is neither the base nor the base with pins
    simp only [type] at h
    by_cases hown : own = []
    · subst hown
      have hsize := congrArg sizeOf (show base = _ from h)
      rw [hpinned] at hsize
      simp at hsize
      omega
    · rw [narrow, if_neg (by simpa using hown)] at h
      simp only [intersection.injEq, List.cons.injEq, and_true] at h
      exact absurd h.1 (ne_narrow_of_ne_nil hpins)

end Pins

/-! ### The branches of a condition -/

section Branches

variable (child : Child) (node : Node) (properties : Table Json) (base : TypeExpr)
  (scope : Scope) (registry : Registry)

/-- What an outcome adds to the branches: one branch when the node has it, and what is given
otherwise. -/
theorem exists_branches_of_outcome (keyword segment : String)
    (hkeyword : (keyword, segment) ∈ [("then", "Then"), ("else", "Else"), ("if", "If")])
    (name : String) (pins : List Literal) (absent : List Branch)
    (habsent : ∀ branch ∈ absent, branch.outcome = none) :
    ∃ branches : List Branch,
      ((compileOutcome child scope segment (fun type => .intersection [narrow base name pins, type])
        (absent.map (Branch.type base name)) (node.get? keyword)).run registry).value =
          branches.map (Branch.type base name) ∧
        (∀ branch ∈ branches, ∀ type ∈ branch.outcome, IsOutcome child node scope type) ∧
        branches.map Branch.pins =
          if (node.get? keyword).isSome then [pins] else absent.map Branch.pins := by
  cases hschema : node.get? keyword with
  | none =>
    refine ⟨absent, rfl, ?_, rfl⟩
    intro branch hbranch type htype
    rw [habsent branch hbranch] at htype
    cases htype
  | some schema =>
    let type := ((child (scope.child segment 1) schema).run registry).value
    refine ⟨[⟨pins, some type⟩], rfl, ?_, rfl⟩
    intro branch hbranch outcome houtcome
    obtain rfl := List.mem_singleton.mp hbranch
    obtain rfl := Option.mem_some.mp houtcome
    exact ⟨keyword, segment, schema, registry, hkeyword, hschema, rfl⟩

/-- A discriminated condition has a branch for its literals where the node says what then
holds, and a branch for the others where the node says what holds else or has any. -/
theorem exists_branches_of_discriminated (name : String) (pinned : List Literal) :
    let remaining := (declaredLiterals properties name).filter
      fun literal => !pinned.contains literal
    ∃ branches : List Branch,
      ((compileDiscriminated child node properties base scope name pinned).run registry).value =
          branches.map (Branch.type base name) ∧
        (∀ branch ∈ branches, ∀ type ∈ branch.outcome, IsOutcome child node scope type) ∧
        branches.map Branch.pins =
          (if (node.get? "then").isSome then [pinned] else []) ++
            if (node.get? "else").isSome then [remaining]
            else if remaining.isEmpty then [] else [remaining] := by
  intro remaining
  let rest : List Branch := if remaining.isEmpty then [] else [⟨remaining, none⟩]
  have hrest : rest.map (Branch.type base name) =
      if remaining.isEmpty then [] else [narrow base name remaining] := by
    simp only [rest]
    split <;> rfl
  have hpins : rest.map Branch.pins = if remaining.isEmpty then [] else [remaining] := by
    simp only [rest]
    split <;> rfl
  obtain ⟨thenBranches, hthen, hthenOutcomes, hthenPins⟩ :=
    exists_branches_of_outcome child node base scope registry "then" "Then" (by simp) name pinned
      [] (by simp)
  obtain ⟨elseBranches, helse, helseOutcomes, helsePins⟩ :=
    exists_branches_of_outcome child node base scope
      ((compileOutcome child scope "Then"
        (fun type => .intersection [narrow base name pinned, type]) []
        (node.get? "then")).run registry).enums
      "else" "Else" (by simp) name remaining rest (by
        intro branch hbranch
        simp only [rest] at hbranch
        split at hbranch
        · cases hbranch
        · rw [List.mem_singleton.mp hbranch])
  refine ⟨thenBranches ++ elseBranches, ?_, ?_, ?_⟩
  · rw [hrest] at helse
    rw [compileDiscriminated_eq, List.map_append, ← hthen, ← helse]
    rfl
  · intro branch hbranch
    rcases List.mem_append.mp hbranch with hleft | hright
    · exact hthenOutcomes branch hleft
    · exact helseOutcomes branch hright
  · rw [List.map_append, hthenPins, helsePins, hpins]
    rfl

theorem settleCondition_of_ne_nil {types : List TypeExpr} (htypes : types ≠ []) :
    settleCondition child node base scope types = pure (unionOf types) := by
  match types with
  | [] => exact absurd rfl htypes
  | [single] => rfl
  | first :: second :: more => rfl

/-- A condition that has neither outcome nor residue is laid over the object itself. -/
theorem settleCondition_nil_value {condition : Json} (hif : node.get? "if" = some condition)
    (hthen : node.get? "then" = none) (helse : node.get? "else" = none) :
    ((settleCondition child node base scope []).run registry).value =
      .intersection [base, ((child (scope.child "If" 1) condition).run registry).value] := by
  have hbranches : compileBranches child node scope =
      compileOutcome child scope "If" id [] (some condition) := by
    rw [compileBranches_eq, hif, hthen, helse]
    rfl
  unfold settleCondition
  rw [hbranches]
  rfl

/-- The branches of a condition pin its property to the literals of the condition where the
node says what then holds, and to those that are left over.  Only where there are none, and
nothing is said of what holds else, the second branch is missing. -/
theorem exists_branches {name : String} {pinned : List Literal}
    (hpinned : (node.get? "if").bind pinnedProperty? = some (name, pinned)) :
    ∃ branches, HasBranches child node scope base name
        ((compileConditional child node properties base scope).run registry).value branches ∧
      branches.map Branch.pins =
        (if (node.get? "then").isSome then [pinned] else []) ++
          if (node.get? "then").isSome && !(node.get? "else").isSome &&
            (residue node properties).isEmpty then [] else [residue node properties] := by
  obtain ⟨branches, hvalue, houtcomes, hpins⟩ := exists_branches_of_discriminated child node
    properties base scope registry name pinned
  obtain ⟨condition, hif, -⟩ := Option.bind_eq_some_iff.mp hpinned
  have hresidue := residue_of_pinned hpinned properties
  rw [← declaredLiterals] at hresidue
  rw [← hresidue] at hpins
  have hrun : ((compileConditional child node properties base scope).run registry).value =
      ((settleCondition child node base scope (branches.map (Branch.type base name))).run
        ((compileDiscriminated child node properties base scope name pinned).run
          registry).enums).value := by
    rw [compileConditional_eq, hpinned, ← hvalue]
    rfl
  rw [hrun]
  by_cases hnil : branches = []
  · -- nothing is said of the outcomes and no literal is left over
    subst hnil
    have hempty : (node.get? "then").isSome = false ∧ (node.get? "else").isSome = false ∧
        (residue node properties).isEmpty = true := by
      revert hpins
      cases (node.get? "then").isSome <;> cases (node.get? "else").isSome <;>
        cases (residue node properties).isEmpty <;> simp
    obtain ⟨hthen, helse, hnone⟩ := hempty
    refine ⟨[⟨[], some _⟩], ⟨settleCondition_nil_value child node base scope _ hif
      (Option.isSome_eq_false_iff.mp hthen |> Option.isNone_iff_eq_none.mp)
      (Option.isSome_eq_false_iff.mp helse |> Option.isNone_iff_eq_none.mp), by simp, ?_⟩, ?_⟩
    · intro branch hbranch type htype
      obtain rfl := List.mem_singleton.mp hbranch
      obtain rfl := Option.mem_some.mp htype
      exact ⟨"if", "If", condition, _, by simp, hif, rfl⟩
    · simp [hthen, List.isEmpty_iff.mp hnone]
  · rw [settleCondition_of_ne_nil child node base scope (by simpa using hnil)]
    refine ⟨branches, ⟨rfl, hnil, houtcomes⟩, ?_⟩
    rw [hpins]
    congr 1
    have hsome : branches.map Branch.pins ≠ [] := by simpa using hnil
    revert hsome
    rw [hpins]
    cases (node.get? "then").isSome <;> cases (node.get? "else").isSome <;>
      cases (residue node properties).isEmpty <;> simp

variable {node properties}

theorem exists_keeps_iff {name : String} {pinned : List Literal}
    (hpinned : (node.get? "if").bind pinnedProperty? = some (name, pinned))
    {branches : List Branch}
    (hpins : branches.map Branch.pins =
      (if (node.get? "then").isSome then [pinned] else []) ++
        if (node.get? "then").isSome && !(node.get? "else").isSome &&
          (residue node properties).isEmpty then [] else [residue node properties])
    {literal : Literal}
    (hliteral : literal ∈ pinned ∨ literal ∈ declaredLiterals properties name) :
    (∃ branch ∈ branches, branch.Keeps literal) ↔
      (literal ∈ pinned → (node.get? "then").isSome ∨ residue node properties = []) := by
  have hkeeps : (∃ branch ∈ branches, branch.Keeps literal) ↔
      ∃ pins ∈ branches.map Branch.pins, pins = [] ∨ literal ∈ pins := by
    simp [Branch.Keeps]
  have hresidue : literal ∈ residue node properties ↔
      literal ∈ declaredLiterals properties name ∧ literal ∉ pinned := by
    rw [residue_of_pinned hpinned]
    simp [declaredLiterals]
  have hleft : literal ∈ pinned ∨ literal ∈ residue node properties := by
    rw [hresidue]
    tauto
  rw [hkeeps, hpins]
  cases (node.get? "then").isSome with
  | true =>
    refine ⟨fun _ _ => Or.inl rfl, fun _ => ?_⟩
    rcases hleft with hmem | hmem
    · exact ⟨pinned, by simp, Or.inr hmem⟩
    · have hne : residue node properties ≠ [] := List.ne_nil_of_mem hmem
      exact ⟨residue node properties, by simp [hne], Or.inr hmem⟩
  | false =>
    -- the only branch is that of the literals left over, or a base that is left alone
    simp only [Bool.false_eq_true, if_false, Bool.false_and, List.nil_append,
      List.mem_singleton, exists_eq_left, false_or]
    constructor
    · rintro (hnil | hmem) hlit
      · exact hnil
      · exact absurd hlit (hresidue.mp hmem).2
    · intro h
      rcases hleft with hmem | hmem
      · exact Or.inl (h hmem)
      · exact Or.inr hmem

variable (node properties)

/-- Of the literals that a condition pins, and those that are declared for its property, the
branches keep all but these: where the node does not say what then holds and other literals
are left over, the literals of the condition are lost.  An object whose property has a
literal that is kept stays, unless an outcome excludes it. -/
theorem conditional_keeps_iff {name : String} {pinned : List Literal}
    (hpinned : (node.get? "if").bind pinnedProperty? = some (name, pinned)) :
    let type := ((compileConditional child node properties base scope).run registry).value
    ∃ branches, HasBranches child node scope base name type branches ∧
      ∀ literal, literal ∈ pinned ∨ literal ∈ declaredLiterals properties name →
        ((∃ branch ∈ branches, branch.Keeps literal) ↔
          (literal ∈ pinned → (node.get? "then").isSome ∨ residue node properties = [])) ∧
        ∀ branch ∈ branches, branch.Keeps literal →
          ∀ lookups enums v x, base.Denotes lookups enums v → v.field? name = some x →
            literal.Denotes x →
            (∀ outcome ∈ branch.outcome, outcome.Denotes lookups enums v) →
            type.Denotes lookups enums v := by
  intro type
  obtain ⟨branches, hbranches, hpins⟩ :=
    exists_branches child node properties base scope registry hpinned
  refine ⟨branches, hbranches, fun literal hliteral => ?_⟩
  refine ⟨exists_keeps_iff hpinned hpins hliteral, ?_⟩
  intro branch hbranch hkeeps lookups enums v x hbase hfield hx houtcome
  rw [show type = _ from hbranches.type_eq]
  exact denotes_unionOf (List.mem_map_of_mem hbranch) (hkeeps.denotes hbase hfield hx houtcome)

end Branches

/-! ### An object of two kinds -/

/-- An object with a kind, `a` or `b`, and a condition on kind `a`. -/
def kindNode (outcomes : Table Json) : Node :=
  ⟨outcomes ++ [("if", .object [("properties", .object [("kind", .object [("const",
      .string "a")])])]),
    ("properties", .object [("kind", .object [("enum", .array [.string "a", .string "b"])])]),
    ("type", .string "object")]⟩

def kindBase : TypeExpr := objectOf [Field.possible "kind" (.enumRef "KindEnum")]

def kindProperties : Table Json :=
  [("kind", .object [("enum", .array [.string "a", .string "b"])])]

def needsX : Json := .object [("required", .array [.string "x"])]

/-- With `then` alone, both kinds are kept. -/
theorem conditional_keeps_iff_kind :
    ∃ branches, HasBranches (compileNested []) (kindNode [("then", needsX)])
        (Scope.top .component "") kindBase "kind"
        ((compileConditional (compileNested []) (kindNode [("then", needsX)]) kindProperties
          kindBase (Scope.top .component "")).run Registry.empty).value branches ∧
      (∃ branch ∈ branches, branch.Keeps (.string "a")) ∧
      ∃ branch ∈ branches, branch.Keeps (.string "b") := by
  have hpinned : ((kindNode [("then", needsX)]).get? "if").bind pinnedProperty? =
      some ("kind", [.string "a"]) := by decide +kernel
  obtain ⟨branches, hbranches, hkeeps⟩ := conditional_keeps_iff (compileNested [])
    (kindNode [("then", needsX)]) kindProperties kindBase (Scope.top .component "")
    Registry.empty hpinned
  refine ⟨branches, hbranches, ?_, ?_⟩
  · exact (hkeeps (.string "a") (by decide +kernel)).1.mpr fun _ => Or.inl (by decide +kernel)
  · exact (hkeeps (.string "b") (by decide +kernel)).1.mpr fun _ => Or.inl (by decide +kernel)

/-- With `else` alone, the kind of the condition is lost: the type of the object has no branch
for it. -/
theorem not_conditional_keeps :
    let node := kindNode [("else", needsX)]
    let object := (compileObject (compileNested []) node (Scope.top .component "")).run
      Registry.empty
    node.properties?.getD [] = kindProperties ∧
      (node.get? "if").bind pinnedProperty? = some ("kind", [.string "a"]) ∧
      ¬ ∃ branches, HasBranches (compileNested []) node (Scope.top .component "") kindBase "kind"
          object.value branches ∧
        ∃ branch ∈ branches, branch.Keeps (.string "a") := by
  intro node object
  refine ⟨rfl, by decide +kernel, ?_⟩
  rintro ⟨branches, hbranches, branch, hbranch, hkept⟩
  have htype : object.value = .intersection
      [narrow kindBase "kind" [.string "b"], objectOf [Field.required "x" .unknown]] := rfl
  rw [hbranches.type_eq] at htype
  -- the type is an intersection and no union, so there is one branch
  match branches, hbranch with
  | [single], hbranch =>
    obtain rfl := List.mem_singleton.mp hbranch
    have hpins := Branch.pins_eq_of_type_eq (by simp) htype
    rw [Branch.Keeps, hpins] at hkept
    revert hkept
    decide
  | first :: second :: more, _ => cases htype

end OpenApiTypings.Schema
