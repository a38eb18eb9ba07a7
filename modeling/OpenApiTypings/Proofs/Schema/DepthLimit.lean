import Mathlib.Logic.Function.Iterate
import OpenApiTypings.Proofs.Schema.Recursion

/-!
# What the limit of depth cuts off

The limit of depth ends the compilation of schemas that refer to themselves.  Without it
the compiler is a recursion that need not end: `freeStep` is one round of it, and the
recursion gives a result once so many rounds give it whatever answers they start from.

For a schema without references that recursion ends.  As long as no mapping nested in the
schema lies further down than the limit allows, by the weights of `Node.Nests`, it gives what
the compiler gives: the limit is not seen.
-/

namespace OpenApiTypings.Schema

/-! ### The compiler without a limit -/

/-- The type of a schema that is read in the scope, whatever its depth. -/
def readFreely (answers : Answers) (schema : Json) (scope : Scope) : Compilation TypeExpr :=
  match Node.ofJson? schema with
  | none => return .unknown
  | some node =>
      match node.reference? with
      | some pointer => answers (.reference pointer scope)
      | none => answers (.node node scope)

/-- What a call gives, with answers to the calls that it makes: a round of the compiler without
its checks of depth. -/
def freeStep (schemas : Table (RefOr Json)) (answers : Answers) : Answers
  | .slot (.reference pointer) scope => answers (.reference pointer scope)
  | .slot (.inline schema) scope => readFreely answers schema scope
  | .reference pointer scope =>
      match Section.schemas.nameIn? pointer with
      | none => return .unknown
      | some name =>
          if scope.mode = .component then return .component .schemas name
          else
            match schemas.get? name with
            | none => return .component .schemas name
            | some target => answers (.slot target (scope.renamed name 1))
  | .nested schema scope => readFreely answers schema (scope.deeper 1)
  | .node node scope =>
      compileNode (fun scope schema => answers (.nested schema scope)) node scope

/-- The recursion without a limit ends at the call with this result: after so many rounds the
answers that it started from do not matter. -/
def GivesFreely (schemas : Table (RefOr Json)) (call : Call) (result : Compilation TypeExpr) :
    Prop :=
  ∃ rounds, ∀ answers, (freeStep schemas)^[rounds] answers call = result

variable {schemas : Table (RefOr Json)}

/-- The result stays the same in all further rounds. -/
theorem GivesFreely.unique {call : Call} {result result' : Compilation TypeExpr}
    (h : GivesFreely schemas call result) (h' : GivesFreely schemas call result') :
    result = result' := by
  obtain ⟨rounds, hrounds⟩ := h
  obtain ⟨rounds', hrounds'⟩ := h'
  have hboth := hrounds ((freeStep schemas)^[rounds'] (outcome schemas))
  rw [← Function.iterate_add_apply, Nat.add_comm, Function.iterate_add_apply, hrounds'] at hboth
  exact hboth.symm

/-! ### Below the limit -/

/-- No mapping nested in the schema lies beyond the limit when the schema itself is read at the
depth. -/
def Fits (schema : Json) (depth : Nat) : Prop :=
  ∀ weight node, PathTo schema weight node → depth + weight ≤ maxDepth

theorem Fits.down {schema inner : Json} {node : Node} {depth weight : Nat}
    (h : Fits schema depth) (hnode : Node.ofJson? schema = some node)
    (hstep : node.Nests weight inner) : Fits inner (depth + weight) := by
  intro rest target hrest
  rw [Nat.add_assoc]
  exact h _ target (.down hnode hstep hrest)

theorem Fits.not_exhausted {schema : Json} {node : Node} {scope : Scope}
    (h : Fits schema scope.depth) (hnode : Node.ofJson? schema = some node) :
    scope.exhausted = false :=
  decide_eq_false (Nat.not_lt.mpr (h 0 node (.here hnode)))

/-- A schema that is no mapping is unknown, however deep it lies. -/
theorem readFreely_of_none {schema : Json} (hnone : Node.ofJson? schema = none)
    (answers : Answers) (scope : Scope) : readFreely answers schema scope = pure .unknown := by
  unfold readFreely
  rw [hnone]

theorem readFreely_of_node {schema : Json} {node : Node} (hnode : Node.ofJson? schema = some node)
    (href : node.reference? = none) (answers : Answers) (scope : Scope) :
    readFreely answers schema scope = answers (.node node scope) := by
  unfold readFreely
  simp only [hnode, href]

theorem compileNested_of_none {schema : Json} (hnone : Node.ofJson? schema = none)
    (scope : Scope) : compileNested schemas scope schema = pure .unknown := by
  have hstep := outcome_eq_step schemas (.nested schema scope)
  simp only [outcome, step, compileNestedBy, hnone, ite_self] at hstep
  exact hstep

theorem compileNested_of_node {schema : Json} {node : Node}
    (hnode : Node.ofJson? schema = some node) (href : node.reference? = none) {scope : Scope}
    (hscope : (scope.deeper 1).exhausted = false) :
    compileNested schemas scope schema =
      compileNode (compileNested schemas) node (scope.deeper 1) := by
  have houter : scope.exhausted = false := by
    have hdepth := depth_le_of_not_exhausted hscope
    exact decide_eq_false (Nat.not_lt.mpr (Nat.le_of_succ_le hdepth))
  have hstep := outcome_eq_step schemas (.nested schema scope)
  simp only [outcome, step, compileNestedBy, hnode, href, houter, hscope, Bool.false_eq_true,
    if_false] at hstep
  exact hstep

/-- A node is given what the compiler gives it, when its nested schemas are. -/
theorem compileNode_of_rounds {schema : Json} {node : Node} {scope : Scope} {rounds : Nat}
    (hnode : Node.ofJson? schema = some node) (hrefs : schema.RefFree)
    (hfits : Fits schema scope.depth)
    (hchild : ∀ inner inside, Json.RefFree inner → Fits inner (inside.depth + 1) →
      scope.depth < inside.depth → ∀ answers,
        (freeStep schemas)^[rounds] answers (.nested inner inside) =
          compileNested schemas inside inner) (answers : Answers) :
    (freeStep schemas)^[rounds + 1] answers (.node node scope) =
      compileNode (compileNested schemas) node scope := by
  rw [Function.iterate_succ_apply']
  refine compileNode_congr node scope fun part hpart => ?_
  have hnests := nests_of_mem_nodeParts hpart
  have hinner : Fits part.schema ((part.scopeIn scope).depth + 1) := hfits.down hnode hnests
  obtain rfl := eq_object_of_ofJson? hnode
  exact hchild _ _ (hnests.allMappings hrefs) hinner (Part.depth_scopeIn hpart scope).1 answers

/-- The limit lies at most `levels` below the scope, so twice as many rounds are enough. -/
theorem nested_of_fits (levels : Nat) {schema : Json} {scope : Scope} (hrefs : schema.RefFree)
    (hfits : Fits schema (scope.depth + 1)) (hlevels : maxDepth ≤ scope.depth + levels)
    (answers : Answers) :
    (freeStep schemas)^[2 * levels + 1] answers (.nested schema scope) =
      compileNested schemas scope schema := by
  induction levels generalizing schema scope answers with
  | zero =>
    -- here no mapping fits any more
    have hnone : Node.ofJson? schema = none := by
      cases hnode : Node.ofJson? schema with
      | none => rfl
      | some node =>
        have hdepth := hfits 0 node (.here hnode)
        omega
    rw [compileNested_of_none hnone]
    exact readFreely_of_none hnone answers _
  | succ levels ih =>
    have hround : (freeStep schemas)^[2 * (levels + 1) + 1] answers (.nested schema scope) =
        readFreely ((freeStep schemas)^[2 * levels + 1 + 1] answers) schema (scope.deeper 1) := by
      rw [Function.iterate_succ_apply']
      rfl
    rw [hround]
    cases hnode : Node.ofJson? schema with
    | none => rw [compileNested_of_none hnode, readFreely_of_none hnode]
    | some node =>
      have href := reference?_of_refFree hnode hrefs
      have hscope : (scope.deeper 1).exhausted = false := Fits.not_exhausted hfits hnode
      rw [readFreely_of_node hnode href, compileNested_of_node hnode href hscope]
      refine compileNode_of_rounds hnode hrefs hfits ?_ answers
      intro inner inside hinner hfitsInner hdeeper answers
      have hdepth : scope.depth + 1 < inside.depth := hdeeper
      exact ih hinner hfitsInner (by omega) answers

theorem slot_of_fits {schema : Json} {scope : Scope} (hrefs : schema.RefFree)
    (hfits : Fits schema scope.depth) (hdepth : scope.depth ≤ maxDepth) :
    GivesFreely schemas (.slot (.inline schema) scope)
      (compile schemas (.inline schema) scope) := by
  refine ⟨2 * maxDepth + 1 + 1 + 1, fun answers => ?_⟩
  have hround :
      (freeStep schemas)^[2 * maxDepth + 1 + 1 + 1] answers (.slot (.inline schema) scope) =
        readFreely ((freeStep schemas)^[2 * maxDepth + 1 + 1] answers) schema scope := by
    rw [Function.iterate_succ_apply']
    rfl
  have hscope : scope.exhausted = false := decide_eq_false (Nat.not_lt.mpr hdepth)
  rw [hround, compile, compileSlotWith]
  simp only [hscope, Bool.false_eq_true, if_false]
  cases hnode : Node.ofJson? schema with
  | none => exact readFreely_of_none hnode _ scope
  | some node =>
    have href := reference?_of_refFree hnode hrefs
    simp only [href]
    rw [readFreely_of_node hnode href]
    refine compileNode_of_rounds hnode hrefs hfits ?_ answers
    exact fun inner inside hinner hfitsInner _ answers =>
      nested_of_fits maxDepth hinner hfitsInner (Nat.le_add_left ..) answers

/-- The limit of depth is not seen below its threshold.  When no mapping nested in a schema
without references lies deeper than what is left of the limit, the recursion without a limit
ends and gives what the compiler gives, the type as well as the enums, and nothing else. -/
theorem depth_limit_invisible {schema : Json} {scope : Scope} (hrefs : schema.RefFree)
    (hdepth : scope.depth ≤ maxDepth)
    (hpaths : ∀ weight node, PathTo schema weight node → weight ≤ maxDepth - scope.depth)
    (result : Compilation TypeExpr) :
    GivesFreely schemas (.slot (.inline schema) scope) result ↔
      result = compile schemas (.inline schema) scope := by
  have hfits : Fits schema scope.depth := by
    intro weight node hpath
    have hweight := hpaths weight node hpath
    omega
  have hgives : GivesFreely schemas (.slot (.inline schema) scope)
      (compile schemas (.inline schema) scope) := slot_of_fits hrefs hfits hdepth
  constructor
  · intro hresult
    exact hresult.unique hgives
  · rintro rfl
    exact hgives

/-- Records of lists of texts. -/
def recordsSchema : Json :=
  .object [("additionalProperties", .object [("items", .object [("type", .string "string")])])]

section Records

variable {weight : Nat} {schema inner : Json} {node : Node}

theorem get?_single (key keyword : String) :
    (Node.mk [(key, schema)]).get? keyword = if keyword = key then some schema else none := by
  unfold Node.get? Table.get?
  by_cases hkey : keyword = key
  · rw [if_pos hkey, hkey, List.lookup_cons_self]
  · rw [if_neg hkey, List.lookup_cons, beq_eq_false_iff_ne.mpr hkey, List.lookup_nil]

theorem nests_additional (h : Node.Nests ⟨[("additionalProperties", schema)]⟩ weight inner) :
    weight = 3 ∧ inner = schema := by
  simp [Node.nests_iff, Node.properties?, Node.mapping?, Node.patternProperties?,
    Node.fullMapping?, Node.additionalProperties?, Node.list?, Node.items?, get?_single] at h
  exact ⟨h.2, h.1.symm⟩

theorem nests_items (h : Node.Nests ⟨[("items", schema)]⟩ weight inner) :
    weight = 2 ∧ inner = schema := by
  simp [Node.nests_iff, Node.properties?, Node.mapping?, Node.patternProperties?,
    Node.fullMapping?, Node.additionalProperties?, Node.list?, Node.items?, get?_single] at h
  exact ⟨h.2, h.1.1.symm⟩

theorem not_nests_type : ¬ Node.Nests ⟨[("type", schema)]⟩ weight inner := by
  simp [Node.nests_iff, Node.properties?, Node.mapping?, Node.patternProperties?,
    Node.fullMapping?, Node.additionalProperties?, Node.list?, Node.items?, get?_single]

theorem weight_le_of_records (h : PathTo recordsSchema weight node) : weight ≤ 5 := by
  cases h with
  | here => exact Nat.zero_le 5
  | down hnode hstep hlists =>
    cases hnode
    obtain ⟨rfl, rfl⟩ := nests_additional hstep
    cases hlists with
    | here => decide
    | down hnode hstep htexts =>
      cases hnode
      obtain ⟨rfl, rfl⟩ := nests_items hstep
      cases htexts with
      | here => decide
      | down hnode hstep =>
        cases hnode
        exact absurd hstep not_nests_type

end Records

theorem depth_limit_invisible_records :
    GivesFreely [] (.slot (.inline recordsSchema) ⟨25, .input, "Names"⟩)
      (compile [] (.inline recordsSchema) ⟨25, .input, "Names"⟩) := by
  refine (depth_limit_invisible (by decide +kernel) (by decide) ?_ _).mpr rfl
  exact fun _ _ => weight_le_of_records

end OpenApiTypings.Schema
