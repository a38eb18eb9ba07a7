import OpenApiTypings.Proofs.Enum.Registry
import OpenApiTypings.Proofs.Lists

/-!
# What a computation ensures

A computation extends the registry by calls alone, and what is said of its value has
to stay true when later computations extend the registry further.  `Ensures` says both
at once, so that it composes: what a part ensures may be used in every registry that is
reached after it.
-/

namespace OpenApiTypings.Compilation

/-- The registry is only extended, and the value has the property in every registry
that is reached from then on. -/
def Ensures (m : Compilation α) (Q : Registry → α → Prop) : Prop :=
  ∀ registry, registry.Reaches (m.run registry).enums ∧
    ∀ later, (m.run registry).enums.Reaches later → Q later (m.run registry).value

namespace Ensures

variable {m : Compilation α} {f : α → Compilation β} {Q Q' : Registry → α → Prop}
  {R : Registry → β → Prop}

theorem pure {a : α} (ha : ∀ registry, Q registry a) :
    Ensures (Pure.pure a : Compilation α) Q := by
  intro registry
  exact ⟨Registry.Reaches.refl registry, fun later _ => ha later⟩

/-- What is known of the values of a computation may be used behind it. -/
theorem bind_of_value {p : α → Prop} (hm : m.Ensures Q) (hp : ∀ registry, p (m.run registry).value)
    (hf : ∀ a, p a → (f a).Ensures fun registry b => Q registry a → R registry b) :
    Ensures (m >>= f) R := by
  intro registry
  obtain ⟨hreaches, hvalue⟩ := hm registry
  obtain ⟨hreaches', hvalue'⟩ := hf (m.run registry).value (hp registry) (m.run registry).enums
  refine ⟨hreaches.trans hreaches', ?_⟩
  intro later hlater
  exact hvalue' later hlater (hvalue later (hreaches'.trans hlater))

theorem bind (hm : m.Ensures Q)
    (hf : ∀ a, (f a).Ensures fun registry b => Q registry a → R registry b) :
    Ensures (m >>= f) R :=
  bind_of_value (p := fun _ => True) hm (fun _ => trivial) fun a _ => hf a

theorem mono (hm : m.Ensures Q) (hQ : ∀ registry a, Q registry a → Q' registry a) :
    m.Ensures Q' := by
  intro registry
  obtain ⟨hreaches, hvalue⟩ := hm registry
  exact ⟨hreaches, fun later hlater => hQ later _ (hvalue later hlater)⟩

theorem note (event : Event) {Q : Registry → Unit → Prop} (hQ : ∀ registry, Q registry ()) :
    (Compilation.note event).Ensures Q := by
  intro registry
  exact ⟨Registry.Reaches.refl registry, fun later _ => hQ later⟩

/-- Of a list of computations, each ensures its property of its own value. -/
theorem mapM {g : α → Compilation β} {Q : α → Registry → β → Prop} {xs : List α}
    (hg : ∀ x ∈ xs, (g x).Ensures (Q x)) :
    (xs.mapM g).Ensures fun registry ys =>
      List.Forall₂ (fun x y => Q x registry y) xs ys := by
  induction xs with
  | nil =>
    rw [List.mapM_nil]
    exact pure fun _ => List.Forall₂.nil
  | cons x rest ih =>
    rw [List.mapM_cons]
    refine bind (hg x (List.mem_cons_self ..)) fun y => ?_
    refine bind (ih fun x' hx' => hg x' (List.mem_cons_of_mem _ hx')) fun ys => ?_
    exact pure fun _ hys hy => List.Forall₂.cons hy hys

theorem mapM_mem {g : α → Compilation β} {xs : List α} (hg : ∀ x ∈ xs, (g x).Ensures R) :
    (xs.mapM g).Ensures fun registry ys => ∀ y ∈ ys, R registry y := by
  refine (mapM (Q := fun _ => R) hg).mono fun registry ys hys y hy => ?_
  obtain ⟨-, -, hR⟩ := exists_left_of_mem hys hy
  exact hR

/-- A value that is made from that of another computation. -/
theorem last {f : α → β} (hm : m.Ensures Q)
    (hR : ∀ registry a, Q registry a → R registry (f a)) :
    Ensures (m >>= fun a => Pure.pure (f a)) R :=
  bind hm fun _ => pure fun registry => hR registry _

end Ensures

end OpenApiTypings.Compilation

namespace OpenApiTypings

/-- A call ensures what holds of the type that stands for the members it declares, and
of no type when its values make no enum. -/
theorem EnumCall.ensures (call : EnumCall) {Q : Registry → Option TypeExpr → Prop}
    (hnone : call.members? = none → ∀ registry, Q registry none)
    (hsome : ∀ members name registry, call.members? = some members →
      registry.members? name = some members →
      (∃ n, name = Registry.candidate call.base n) → Q registry (some (call.usage name))) :
    (Schema.emitEnum call.hint call.values call.nullable).Ensures Q := by
  intro registry
  refine ⟨Registry.Reaches.call registry call, ?_⟩
  intro later hlater
  cases hcall : call.members? with
  | none =>
    have hvalue := (call.outcome_of_none hcall registry).1
    rw [EnumCall.outcome] at hvalue
    rw [hvalue]
    exact hnone hcall later
  | some members =>
    have hvalue := (EnumCall.outcome_of_some hcall registry).1
    have hdeclared := hlater.members? (EnumCall.members?_outcome_self hcall registry)
    obtain ⟨n, hchoose, -⟩ := Registry.choose_spec registry call.base members
    rw [EnumCall.outcome] at hvalue
    rw [hvalue]
    exact hsome members _ later hcall hdeclared ⟨n, hchoose⟩

/-- The object type of fields with the type of further properties laid over it. -/
def Schema.extendedType (fields : List (Field TypeExpr)) (extra : ExtraProperties) :
    TypeExpr :=
  match extra.type? with
  | some type => .intersection [.objectOf fields, type]
  | none => .objectOf fields

end OpenApiTypings
