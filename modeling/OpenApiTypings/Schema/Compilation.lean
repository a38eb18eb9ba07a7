import OpenApiTypings.Enum.Registry
import OpenApiTypings.Log.Event

/-!
# Computations that declare enums

Compiling a schema reads and extends the registry of enums and reports events.  A
`Compilation` takes a registry and gives a value, the registry after it, and the
events in order.  Events are given out only and never read, so value and registry
of a computation do not depend on them.
-/

namespace OpenApiTypings

structure Outcome (α : Type) where
  value : α
  enums : Registry
  events : List Event

def Compilation (α : Type) := Registry → Outcome α

namespace Compilation

def run (m : Compilation α) (registry : Registry) : Outcome α := m registry

protected def pure (a : α) : Compilation α := fun registry => ⟨a, registry, []⟩

/-- One computation after another; the events of both are kept. -/
protected def bind (m : Compilation α) (f : α → Compilation β) : Compilation β :=
  fun registry =>
    let first := m registry
    let second := f first.value first.enums
    ⟨second.value, second.enums, first.events ++ second.events⟩

instance : Monad Compilation where
  pure := Compilation.pure
  bind := Compilation.bind

instance : LawfulMonad Compilation := LawfulMonad.mk'
  _
  (by
    intro α m
    funext registry
    show Compilation.bind m (fun a => Compilation.pure a) registry = m registry
    simp [Compilation.bind, Compilation.pure])
  (by intros; rfl)
  (by
    intro α β γ m f g
    funext registry
    show Compilation.bind (Compilation.bind m f) g registry =
      Compilation.bind m (fun a => Compilation.bind (f a) g) registry
    simp [Compilation.bind])

@[simp] theorem run_pure (a : α) (registry : Registry) :
    (pure a : Compilation α).run registry = ⟨a, registry, []⟩ := rfl

@[simp] theorem run_bind (m : Compilation α) (f : α → Compilation β)
    (registry : Registry) :
    (m >>= f).run registry =
      ⟨((f (m.run registry).value).run (m.run registry).enums).value,
        ((f (m.run registry).value).run (m.run registry).enums).enums,
        (m.run registry).events ++
          ((f (m.run registry).value).run (m.run registry).enums).events⟩ := rfl

def note (event : Event) : Compilation Unit := fun registry => ⟨(), registry, [event]⟩

/-- Declares the members under the base name or a numbered one, unless they are
declared there already, and gives the name. -/
def register (base : String) (members : List EnumMember) : Compilation String :=
  fun registry =>
    let name := registry.choose base members
    match registry.members? name with
    | some _ => ⟨name, registry, []⟩
    | none =>
        let taken := if name = base then [] else [Event.enumNameTaken base name]
        ⟨name, registry.declare name members,
          taken ++ [Event.enumRegistered name members.length]⟩

end Compilation

end OpenApiTypings
