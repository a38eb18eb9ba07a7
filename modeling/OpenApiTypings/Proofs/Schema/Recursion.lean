import Mathlib.Logic.Relation
import OpenApiTypings.Proofs.Schema.Positions

/-!
# The recursion of the compiler

References lead from a schema back into the document, so the compiler does not recurse on
the size of a schema.  What ends it is the depth of the scope: it never falls from a call
to a call inside it, every cycle of calls raises it, and beyond `maxDepth` nothing is
called any more.

`Calls` are the calls that a call makes, and `step` is one round of the recursion over
answers to them.  The compiler stacks only `levelCount` rounds; `outcome_eq_step` says that
this is the unlimited recursion.
-/

namespace OpenApiTypings.Schema

/-! ### Calls -/

/-- A call of one of the functions that compile schemas by calling each other: of a slot,
of a reference, of a nested schema, and of a node. -/
inductive Call where
  | slot (slot : RefOr Json) (scope : Scope)
  | reference (pointer : String) (scope : Scope)
  | nested (schema : Json) (scope : Scope)
  | node (node : Node) (scope : Scope)

namespace Call

def scope : Call → Scope
  | .slot _ scope => scope
  | .reference _ scope => scope
  | .nested _ scope => scope
  | .node _ scope => scope

/-- The levels that a call takes from those that are left. -/
def cost : Call → Nat
  | .slot .. => 0
  | .reference .. => 1
  | .nested .. => 1
  | .node .. => 0

/-- The depth below which a call is found from a scope that is nested in nothing. -/
def limit : Call → Nat
  | .slot .. => maxDepth
  | .reference .. => maxDepth + 1
  | .nested .. => maxDepth + 2
  | .node .. => maxDepth

/-- What a call has left: mostly its distance from the limit, and at one depth the order in
which the functions call each other. -/
def rank : Call → Nat
  | .slot _ scope => 3 * (maxDepth + 3 - scope.depth) + 2
  | .reference _ scope => 3 * (maxDepth + 3 - scope.depth) + 1
  | .nested _ scope => 3 * (maxDepth + 3 - scope.depth)
  | .node _ scope => 3 * (maxDepth + 3 - scope.depth) + 1

end Call

/-- The calls that a call makes. -/
inductive Calls (schemas : Table (RefOr Json)) : Call → Call → Prop
  | slotReference {pointer scope} :
      Calls schemas (.slot (.reference pointer) scope) (.reference pointer scope)
  | inlineReference {schema scope node pointer} (hscope : scope.exhausted = false)
      (hnode : Node.ofJson? schema = some node) (href : node.reference? = some pointer) :
      Calls schemas (.slot (.inline schema) scope) (.reference pointer scope)
  | inlineNode {schema scope node} (hscope : scope.exhausted = false)
      (hnode : Node.ofJson? schema = some node) (href : node.reference? = none) :
      Calls schemas (.slot (.inline schema) scope) (.node node scope)
  | target {pointer scope name slot} (hname : Section.schemas.nameIn? pointer = some name)
      (hmode : scope.mode ≠ .component) (hget : schemas.get? name = some slot)
      (hdepth : scope.depth + 1 ≤ maxDepth) :
      Calls schemas (.reference pointer scope) (.slot slot (scope.renamed name 1))
  | nestedReference {schema scope node pointer} (hscope : scope.exhausted = false)
      (hnode : Node.ofJson? schema = some node) (href : node.reference? = some pointer) :
      Calls schemas (.nested schema scope) (.reference pointer (scope.deeper 1))
  | nestedNode {schema scope node} (hscope : scope.exhausted = false)
      (hnode : Node.ofJson? schema = some node) (href : node.reference? = none)
      (hinner : (scope.deeper 1).exhausted = false) :
      Calls schemas (.nested schema scope) (.node node (scope.deeper 1))
  | part {node scope part} (hpart : part ∈ nodeParts scope.mode node) :
      Calls schemas (.node node scope) (.nested part.schema (part.scopeIn scope))

/-- The scopes that a call builds: for the calls that it makes, for a nested schema one
level below it, and for the object of a node one level below the node. -/
inductive Builds (schemas : Table (RefOr Json)) : Call → Scope → Prop
  | callee {call callee} (h : Calls schemas call callee) : Builds schemas call callee.scope
  | inner {schema scope} (hscope : scope.exhausted = false) :
      Builds schemas (.nested schema scope) (scope.deeper 1)
  | object {node scope} : Builds schemas (.node node scope) (scope.deeper 1)

theorem depth_le_of_not_exhausted {scope : Scope} (h : scope.exhausted = false) :
    scope.depth ≤ maxDepth := by
  unfold Scope.exhausted at h
  rw [decide_eq_false_iff_not, Nat.not_lt] at h
  exact h

variable {schemas : Table (RefOr Json)} {call callee : Call}

/-! ### Depth -/

theorem Part.depth_scopeIn {mode : Mode} {node : Node} {part : Part}
    (h : part ∈ nodeParts mode node) (scope : Scope) :
    scope.depth + 1 ≤ (part.scopeIn scope).depth ∧
      (part.scopeIn scope).depth ≤ scope.depth + 2 := by
  show scope.depth + 1 ≤ scope.depth + part.step ∧ scope.depth + part.step ≤ scope.depth + 2
  have hstep := step_of_mem_nodeParts h
  omega

theorem Calls.depth_le (h : Calls schemas call callee) : call.scope.depth ≤ callee.scope.depth := by
  cases h with
  | slotReference => exact Nat.le_refl _
  | inlineReference => exact Nat.le_refl _
  | inlineNode => exact Nat.le_refl _
  | target => exact Nat.le_succ _
  | nestedReference => exact Nat.le_succ _
  | nestedNode => exact Nat.le_succ _
  | part hpart => exact Nat.le_of_succ_le (Part.depth_scopeIn hpart _).1

theorem Calls.depth_le_of_reflTransGen (h : Relation.ReflTransGen (Calls schemas) call callee) :
    call.scope.depth ≤ callee.scope.depth := by
  induction h with
  | refl => exact Nat.le_refl _
  | tail _ hlast ih => exact Nat.le_trans ih hlast.depth_le

/-- A node is deeper than every node that it is nested in. -/
theorem Calls.depth_lt_of_node {node node' : Node} {scope scope' : Scope}
    (h : Relation.TransGen (Calls schemas) (.node node scope) (.node node' scope')) :
    scope.depth < scope'.depth := by
  -- the first call inside a node is of a part, which is deeper; the others are not higher
  obtain ⟨first, hfirst, hrest⟩ := Relation.TransGen.head'_iff.mp h
  have hdepth := Calls.depth_le_of_reflTransGen hrest
  cases hfirst with
  | part hpart => exact Nat.lt_of_lt_of_le (Part.depth_scopeIn hpart scope).1 hdepth

theorem Calls.within (h : Calls schemas call callee) (hcall : call.scope.depth ≤ call.limit) :
    callee.scope.depth ≤ callee.limit := by
  cases h with
  | slotReference => exact Nat.le_succ_of_le hcall
  | inlineReference hscope => exact Nat.le_succ_of_le (depth_le_of_not_exhausted hscope)
  | inlineNode hscope => exact depth_le_of_not_exhausted hscope
  | target _ _ _ hdepth => exact hdepth
  | nestedReference hscope => exact Nat.succ_le_succ (depth_le_of_not_exhausted hscope)
  | nestedNode _ _ _ hinner => exact depth_le_of_not_exhausted hinner
  | part hpart =>
    exact Nat.le_trans (Part.depth_scopeIn hpart _).2 (Nat.add_le_add_right hcall 2)

theorem Calls.within_of_reflTransGen (h : Relation.ReflTransGen (Calls schemas) call callee)
    (hcall : call.scope.depth ≤ call.limit) : callee.scope.depth ≤ callee.limit := by
  induction h with
  | refl => exact hcall
  | tail _ hlast ih => exact hlast.within ih

theorem Call.limit_le (call : Call) : call.limit ≤ maxDepth + 2 := by
  cases call <;> simp only [Call.limit] <;> omega

/-- A call within its limit builds no scope beyond that of a nested schema. -/
theorem Builds.depth_le {scope : Scope} (h : Builds schemas call scope)
    (hcall : call.scope.depth ≤ call.limit) : scope.depth ≤ maxDepth + 2 := by
  cases h with
  | callee hcallee => exact Nat.le_trans (hcallee.within hcall) (Call.limit_le _)
  | inner hscope => exact Nat.le_succ_of_le (Nat.succ_le_succ (depth_le_of_not_exhausted hscope))
  | object => exact Nat.le_succ_of_le (Nat.succ_le_succ hcall)

/-! ### Termination -/

theorem Calls.rank_lt (h : Calls schemas call callee) : callee.rank < call.rank := by
  -- a step down outweighs any change of function; without one the order of functions falls
  cases h with
  | slotReference => exact Nat.lt_succ_self _
  | inlineReference => exact Nat.lt_succ_self _
  | inlineNode => exact Nat.lt_succ_self _
  | target _ _ _ hdepth =>
    simp only [Call.rank, Scope.renamed]
    omega
  | nestedReference hscope =>
    have := depth_le_of_not_exhausted hscope
    simp only [Call.rank, Scope.deeper]
    omega
  | nestedNode hscope =>
    have := depth_le_of_not_exhausted hscope
    simp only [Call.rank, Scope.deeper]
    omega
  | @part _ scope part hpart =>
    have := (Part.depth_scopeIn hpart scope).1
    simp only [Call.rank]
    omega

theorem calls_wellFounded (schemas : Table (RefOr Json)) :
    WellFounded fun callee call => Calls schemas call callee :=
  Subrelation.wf Calls.rank_lt (measure Call.rank).wf

/-! ### One round of the recursion -/

abbrev Answers := Call → Compilation TypeExpr

/-- The type of a slot, with answers to references and nodes. -/
def compileSlotBy (follow : Follow) (enter : Node → Scope → Compilation TypeExpr)
    (slot : RefOr Json) (scope : Scope) : Compilation TypeExpr :=
  match slot with
  | .reference pointer => follow pointer scope
  | .inline schema =>
      if scope.exhausted then do
        Compilation.note (.depthExhausted scope.hint scope.depth)
        return .unknown
      else
        match Node.ofJson? schema with
        | none => return .unknown
        | some node =>
            match node.reference? with
            | some pointer => follow pointer scope
            | none => enter node scope

/-- The type of a nested schema, with answers to references and nodes. -/
def compileNestedBy (follow : Follow) (enter : Node → Scope → Compilation TypeExpr)
    (scope : Scope) (schema : Json) : Compilation TypeExpr :=
  if scope.exhausted then return .unknown
  else
    match Node.ofJson? schema with
    | none => return .unknown
    | some node =>
        let inner := scope.deeper 1
        match node.reference? with
        | some pointer => follow pointer inner
        | none =>
            if inner.exhausted then do
              Compilation.note (.depthExhausted scope.hint inner.depth)
              return .unknown
            else enter node inner

/-- What a call gives, with answers to the calls that it makes. -/
def step (schemas : Table (RefOr Json)) (answers : Answers) : Answers
  | .slot slot scope =>
      compileSlotBy (fun pointer scope => answers (.reference pointer scope))
        (fun node scope => answers (.node node scope)) slot scope
  | .reference pointer scope =>
      compileReferenceWith schemas (fun slot scope => answers (.slot slot scope)) pointer scope
  | .nested schema scope =>
      compileNestedBy (fun pointer scope => answers (.reference pointer scope))
        (fun node scope => answers (.node node scope)) scope schema
  | .node node scope =>
      compileNode (fun scope schema => answers (.nested schema scope)) node scope

/-- What a call gives depends on the answers to the calls that it makes, and on no others. -/
theorem step_congr {answers answers' : Answers}
    (h : ∀ callee, Calls schemas call callee → answers callee = answers' callee) :
    step schemas answers call = step schemas answers' call := by
  cases call with
  | slot slot scope =>
    cases slot with
    | reference pointer => exact h _ .slotReference
    | inline schema =>
      simp only [step, compileSlotBy]
      cases hscope : scope.exhausted with
      | true => rfl
      | false =>
        cases hnode : Node.ofJson? schema with
        | none => rfl
        | some node =>
          simp only [Bool.false_eq_true, if_false]
          cases href : node.reference? with
          | some pointer => exact h _ (.inlineReference hscope hnode href)
          | none => exact h _ (.inlineNode hscope hnode href)
  | reference pointer scope =>
    simp only [step, compileReferenceWith]
    cases hname : Section.schemas.nameIn? pointer with
    | none => rfl
    | some name =>
      by_cases hmode : scope.mode = .component
      · simp only [if_pos hmode]
      · simp only [if_neg hmode]
        cases hget : schemas.get? name with
        | none => rfl
        | some target =>
          by_cases hdepth : maxDepth < scope.depth + 1
          · simp only [if_pos hdepth]
          · simp only [if_neg hdepth]
            exact h _ (.target hname hmode hget (Nat.not_lt.mp hdepth))
  | nested schema scope =>
    simp only [step, compileNestedBy]
    cases hscope : scope.exhausted with
    | true => rfl
    | false =>
      cases hnode : Node.ofJson? schema with
      | none => rfl
      | some node =>
        simp only [Bool.false_eq_true, if_false]
        cases href : node.reference? with
        | some pointer => exact h _ (.nestedReference hscope hnode href)
        | none =>
          cases hinner : (scope.deeper 1).exhausted with
          | true => rfl
          | false => exact h _ (.nestedNode hscope hnode href hinner)
  | node node scope =>
    exact compileNode_congr node scope fun part hpart => h _ (.part hpart)

/-- The recursion has at most one solution. -/
theorem step_unique {answers answers' : Answers}
    (h : ∀ call, answers call = step schemas answers call)
    (h' : ∀ call, answers' call = step schemas answers' call) : answers = answers' := by
  funext call
  induction call using (calls_wellFounded schemas).induction with
  | _ call ih => rw [h call, h' call, step_congr ih]

/-! ### Levels -/

/-- What a call gives with so many levels left. -/
def outcomeIn (schemas : Table (RefOr Json)) (levels : Nat) : Answers
  | .slot slot scope =>
      compileSlotWith (compileReferenceIn schemas levels) (compileNestedIn schemas levels)
        slot scope
  | .reference pointer scope => compileReferenceIn schemas levels pointer scope
  | .nested schema scope => compileNestedIn schemas levels scope schema
  | .node node scope => compileNode (compileNestedIn schemas levels) node scope

def outcome (schemas : Table (RefOr Json)) : Answers
  | .slot slot scope => compile schemas slot scope
  | .reference pointer scope => compileReference schemas pointer scope
  | .nested schema scope => compileNested schemas scope schema
  | .node node scope => compileNode (compileNested schemas) node scope

theorem outcome_eq_outcomeIn (schemas : Table (RefOr Json)) :
    outcome schemas = outcomeIn schemas levelCount := by
  funext call
  cases call <;> rfl

/-- A call is a round of the recursion over the levels that it leaves. -/
theorem outcomeIn_eq_step (schemas : Table (RefOr Json)) (levels : Nat) (call : Call) :
    outcomeIn schemas (levels + call.cost) call = step schemas (outcomeIn schemas levels) call := by
  cases call with
  | slot slot scope => rfl
  | reference pointer scope =>
    show compileReferenceIn schemas (levels + 1) pointer scope = _
    rw [compileReferenceIn]
    rfl
  | nested schema scope =>
    show compileNestedIn schemas (levels + 1) scope schema = _
    rw [compileNestedIn]
    rfl
  | node node scope => rfl

/-- So many levels are as good as any larger number. -/
def Enough (levels : Nat) (call : Call) : Prop :=
  0 < levels ∧ maxDepth + 2 ≤ call.scope.depth + levels

theorem Enough.of_calls {levels : Nat} (h : Enough (levels + call.cost) call)
    (hcallee : Calls schemas call callee) : Enough levels callee := by
  obtain ⟨hpos, hlevels⟩ := h
  have hmax : maxDepth = 30 := rfl
  unfold Enough
  cases hcallee with
  | slotReference => exact ⟨hpos, hlevels⟩
  | inlineReference => exact ⟨hpos, hlevels⟩
  | inlineNode => exact ⟨hpos, hlevels⟩
  | target _ _ _ hdepth =>
    simp only [Call.scope, Call.cost, Scope.renamed] at hlevels ⊢
    omega
  | nestedReference hscope =>
    have := depth_le_of_not_exhausted hscope
    simp only [Call.scope, Call.cost, Scope.deeper] at hlevels ⊢
    omega
  | nestedNode _ _ _ hinner =>
    have := depth_le_of_not_exhausted hinner
    simp only [Call.scope, Call.cost, Scope.deeper] at this hlevels ⊢
    omega
  | @part _ scope part hpart =>
    have := (Part.depth_scopeIn hpart scope).1
    simp only [Call.scope, Call.cost] at hpos hlevels ⊢
    omega

/-- With enough levels, one more changes nothing. -/
theorem outcomeIn_succ {levels : Nat} (h : Enough levels call) :
    outcomeIn schemas (levels + 1) call = outcomeIn schemas levels call := by
  -- on the calls and not on the levels: a slot hands all its levels on to its node
  induction call using (calls_wellFounded schemas).induction generalizing levels with
  | _ call ih =>
    have hcost : call.cost ≤ levels := by
      have hpos := h.1
      cases call with
      | slot => exact Nat.zero_le _
      | reference => exact hpos
      | nested => exact hpos
      | node => exact Nat.zero_le _
    obtain ⟨left, rfl⟩ := Nat.exists_eq_add_of_le' hcost
    rw [Nat.add_right_comm, outcomeIn_eq_step, outcomeIn_eq_step]
    exact step_congr fun callee hcallee => ih callee hcallee (h.of_calls hcallee)

/-- The compiler is the unlimited recursion: it never runs out of levels. -/
theorem outcome_eq_step (schemas : Table (RefOr Json)) (call : Call) :
    outcome schemas call = step schemas (outcome schemas) call := by
  have henough : Enough levelCount call :=
    ⟨by decide, Nat.le_trans (by decide) (Nat.le_add_left levelCount _)⟩
  have hcost : outcomeIn schemas (levelCount + call.cost) call =
      outcomeIn schemas levelCount call := by
    cases call with
    | slot => rfl
    | reference => exact outcomeIn_succ henough
    | nested => exact outcomeIn_succ henough
    | node => rfl
  rw [outcome_eq_outcomeIn, ← outcomeIn_eq_step, hcost]

/-! ### Bounded recursion -/

/-- The recursion that starts from a call ends, gives the outcome of the compiler, and
stays within the limit of depth. -/
structure BoundedRecursion (schemas : Table (RefOr Json)) (start : Call) : Prop where
  /-- There is no endless chain of calls. -/
  terminates : Acc (fun callee call => Calls schemas call callee) start
  /-- A call depends on the calls that it makes, and on no others. -/
  depends : ∀ call answers answers',
    (∀ callee, Calls schemas call callee → answers callee = answers' callee) →
      step schemas answers call = step schemas answers' call
  /-- The outcome of the compiler, and nothing else, solves the recursion. -/
  solution : ∀ answers, (∀ call, answers call = step schemas answers call) ↔
    answers = outcome schemas
  /-- A node is entered within the limit of depth. -/
  node_depth : ∀ node scope,
    Relation.ReflTransGen (Calls schemas) start (.node node scope) → scope.depth ≤ maxDepth
  /-- A node that is entered inside another one is deeper. -/
  node_deeper : ∀ node scope node' scope',
    Relation.TransGen (Calls schemas) (.node node scope) (.node node' scope') →
      scope.depth < scope'.depth
  /-- No scope is built beyond the limit of depth by more than two. -/
  scope_depth : ∀ call scope, Relation.ReflTransGen (Calls schemas) start call →
    Builds schemas call scope → scope.depth ≤ maxDepth + 2

/-- Whatever the schemas of a document refer to, compiling a slot that is nested in nothing
is a bounded recursion. -/
theorem compile_bounded (schemas : Table (RefOr Json)) (slot : RefOr Json) (mode : Mode)
    (hint : String) : BoundedRecursion schemas (.slot slot (Scope.top mode hint)) := by
  have hstart : (Call.slot slot (Scope.top mode hint)).scope.depth ≤
      (Call.slot slot (Scope.top mode hint)).limit := Nat.zero_le _
  refine ⟨(calls_wellFounded schemas).apply _, fun _ _ _ => step_congr, fun answers => ⟨?_, ?_⟩,
    ?_, ?_, ?_⟩
  · intro hanswers
    exact step_unique hanswers (outcome_eq_step schemas)
  · rintro rfl
    exact outcome_eq_step schemas
  · intro node scope hnode
    exact Calls.within_of_reflTransGen hnode hstart
  · intro node scope node' scope' hnested
    exact Calls.depth_lt_of_node hnested
  · intro call scope hcall hbuilds
    exact hbuilds.depth_le (Calls.within_of_reflTransGen hcall hstart)

/-- Two components that are nothing but references to each other are unknown. -/
example :
    ((compile [("A", .reference "#/components/schemas/B"),
        ("B", .reference "#/components/schemas/A")]
      (.reference "#/components/schemas/A") (Scope.top .input "T")).run
        Registry.empty).value.render = "unknown" := by
  decide +kernel

end OpenApiTypings.Schema
