import OpenApiTypings.Proofs.Enum.Stability
import OpenApiTypings.Proofs.Schema.Layers
import OpenApiTypings.Proofs.Schema.Traversal

/-!
# The calls that a computation makes

The registry can be read and changed by calls that declare an enum, and by nothing else.  A
computation of the compiler makes its calls in an order that the schema alone decides, and
makes its value from what they give.  `Makes` says this: from every registry, the registry
after the computation is the one after its calls, and its value is a function of their
answers.  So whatever name of an enum a computation knows, one of its calls gave it.
-/

namespace OpenApiTypings

/-- What the calls of a list give, one after the other. -/
def Registry.answers (registry : Registry) : List EnumCall → List (Option TypeExpr)
  | [] => []
  | call :: rest => (call.outcome registry).value :: (call.outcome registry).enums.answers rest

theorem Registry.length_answers (registry : Registry) (calls : List EnumCall) :
    (registry.answers calls).length = calls.length := by
  induction calls generalizing registry with
  | nil => rfl
  | cons call rest ih => rw [answers, List.length_cons, ih, List.length_cons]

theorem Registry.answers_append (registry : Registry) (calls more : List EnumCall) :
    registry.answers (calls ++ more) =
      registry.answers calls ++ (registry.after calls).answers more := by
  induction calls generalizing registry with
  | nil => rfl
  | cons call rest ih => rw [List.cons_append, answers, answers, ih, List.cons_append, after_cons]

/-- Calls that were made before give the same again, and declare nothing. -/
theorem Registry.answers_again {registry later : Registry} {calls : List EnumCall}
    (h : (registry.after calls).Reaches later) :
    later.answers calls = registry.answers calls ∧ later.after calls = later := by
  induction calls generalizing registry with
  | nil => exact ⟨rfl, rfl⟩
  | cons call rest ih =>
    have hfirst : (call.outcome registry).enums.Reaches later := Reaches.trans ⟨rest, rfl⟩ h
    obtain ⟨hvalue, henums⟩ := call.outcome_again hfirst
    obtain ⟨hanswers, hafter⟩ := ih h
    rw [answers, answers, after_cons, hvalue, henums, hanswers]
    exact ⟨rfl, hafter⟩

namespace Compilation

/-- The computation makes the calls in this order and no others: they lead from the registry
before it to the one after it, and its value depends on what they give alone. -/
def Makes (m : Compilation α) (calls : List EnumCall) : Prop :=
  ∃ make : List (Option TypeExpr) → α, ∀ registry,
    (m.run registry).enums = registry.after calls ∧
      (m.run registry).value = make (registry.answers calls)

namespace Makes

variable {m : Compilation α} {f : α → Compilation β} {calls more : List EnumCall}

theorem pure (a : α) : Makes (Pure.pure a : Compilation α) [] :=
  ⟨fun _ => a, fun _ => ⟨rfl, rfl⟩⟩

theorem note (event : Event) : Makes (Compilation.note event) [] :=
  ⟨fun _ => (), fun _ => ⟨rfl, rfl⟩⟩

theorem call (hint : String) (values : List Json) (nullable : Bool) :
    Makes (Schema.emitEnum hint values nullable) [⟨hint, values, nullable⟩] :=
  ⟨fun answers => answers.headD none, fun _ => ⟨rfl, rfl⟩⟩

/-- The calls of the second computation are the same whatever the first one gives. -/
theorem bind (hm : m.Makes calls) (hf : ∀ a, (f a).Makes more) :
    Makes (m >>= f) (calls ++ more) := by
  obtain ⟨make, hmake⟩ := hm
  choose makeNext hnext using hf
  refine ⟨fun answers => makeNext (make (answers.take calls.length)) (answers.drop calls.length),
    fun registry => ?_⟩
  obtain ⟨henums, hvalue⟩ := hmake registry
  obtain ⟨henums', hvalue'⟩ := hnext (m.run registry).value (m.run registry).enums
  have hlength := registry.length_answers calls
  rw [run_bind]
  refine ⟨?_, ?_⟩
  · rw [henums', henums, Registry.after_append]
  · -- the answers are cut where those of the first computation end
    rw [hvalue', henums, hvalue, Registry.answers_append]
    dsimp only
    rw [List.take_left' hlength, List.drop_left' hlength]

theorem last (hm : m.Makes calls) (hf : ∀ a, (f a).Makes []) : Makes (m >>= f) calls := by
  have hbind := hm.bind hf
  rwa [List.append_nil] at hbind

theorem mapM {g : α → Compilation β} {xs : List α} (hg : ∀ x ∈ xs, ∃ calls, (g x).Makes calls) :
    ∃ calls, Makes (xs.mapM g) calls := by
  induction xs with
  | nil =>
    rw [List.mapM_nil]
    exact ⟨[], pure []⟩
  | cons x rest ih =>
    obtain ⟨calls, hx⟩ := hg x (List.mem_cons_self ..)
    obtain ⟨more, hrest⟩ := ih fun x' hx' => hg x' (List.mem_cons_of_mem _ hx')
    rw [List.mapM_cons]
    exact ⟨calls ++ more, hx.bind fun y => hrest.last fun ys => pure (y :: ys)⟩

/-- What makes calls alone only extends the registry. -/
theorem ensures (hm : m.Makes calls) : m.Ensures fun _ _ => True := by
  obtain ⟨make, hmake⟩ := hm
  intro registry
  exact ⟨⟨calls, (hmake registry).1.symm⟩, fun _ _ => trivial⟩

/-- What makes calls alone has a value that a further run gives again. -/
theorem ensures_value (hm : m.Makes calls) :
    m.Ensures fun registry a => a = (m.run registry).value := by
  obtain ⟨make, hmake⟩ := hm
  intro registry
  obtain ⟨henums, hvalue⟩ := hmake registry
  refine ⟨⟨calls, henums.symm⟩, fun later hlater => ?_⟩
  rw [henums] at hlater
  rw [hvalue, (hmake later).2, (Registry.answers_again hlater).1]

end Makes

end Compilation

/-! ### Schemas -/

namespace Schema

open Compilation (Makes)

theorem emitEnum_of_none {hint : String} {values : List Json} {nullable : Bool}
    (h : EnumMember.ofValues? values = none) : emitEnum hint values nullable = pure none := by
  unfold emitEnum
  rw [h]

theorem compileListed_makes (node : Node) (scope : Scope) :
    ∃ calls, (compileListed node scope).Makes calls := by
  unfold compileListed
  cases node.enumValues? with
  | none => exact ⟨_, Makes.pure none⟩
  | some values =>
    refine ⟨_, (Makes.call scope.hint values node.nullable).last fun type? => ?_⟩
    cases type? with
    | some type => exact Makes.pure (some type)
    | none => cases values.mapM Literal.ofJson? <;> exact Makes.pure _

theorem compileLiteral_makes (node : Node) (scope : Scope) :
    ∃ calls, (compileLiteral node scope).Makes calls := by
  unfold compileLiteral
  cases node.const? with
  | none => exact compileListed_makes node scope
  | some value =>
    simp only
    cases hliteral : Literal.ofJson? value with
    | some literal =>
      refine ⟨_, (Makes.call scope.hint [value] node.nullable).last fun type? => ?_⟩
      cases type? <;> exact Makes.pure _
    | none =>
      -- a value without a literal makes no enum, so the listed values are always looked at
      rw [emitEnum_of_none (ofValues?_eq_none_of_literal hliteral), pure_bind]
      exact compileListed_makes node scope

theorem compileNode_makes {child : Child}
    (hchild : ∀ scope schema, ∃ calls, (child scope schema).Makes calls) (node : Node)
    (scope : Scope) : ∃ calls, (compileNode child node scope).Makes calls := by
  obtain ⟨make, hnode⟩ := compileNode_eq node scope
  obtain ⟨calls, hliteral⟩ := compileLiteral_makes node scope
  obtain ⟨more, hparts⟩ := Makes.mapM fun part (_ : part ∈ nodeParts scope.mode node) =>
    hchild (part.scopeIn scope) part.schema
  rw [hnode child]
  exact ⟨calls ++ more, hliteral.bind fun _ => hparts.last fun _ => Makes.pure _⟩

theorem makes_keptByLayers :
    KeptByLayers fun m : Compilation TypeExpr => ∃ calls, m.Makes calls where
  unknown := ⟨_, Makes.pure _⟩
  exhausted event := ⟨_, (Makes.note event).last fun _ => Makes.pure _⟩
  component _ := ⟨_, Makes.pure _⟩
  node := compileNode_makes

theorem compile_makes (schemas : Table (RefOr Json)) (slot : RefOr Json) (scope : Scope) :
    ∃ calls, (compile schemas slot scope).Makes calls :=
  makes_keptByLayers.compile schemas slot scope

theorem compileOptional_makes (schemas : Table (RefOr Json)) (slot : Option (RefOr Json))
    (scope : Scope) : ∃ calls, (compileOptional schemas slot scope).Makes calls := by
  cases slot with
  | some slot => exact compile_makes schemas slot scope
  | none => exact ⟨_, Makes.pure _⟩

end Schema

end OpenApiTypings
