import OpenApiTypings.Proofs.Enum.Stability
import OpenApiTypings.Proofs.Lists

/-!
# Computations that are run again

A computation is *stable* when a second run, in whatever registry is reached after the
first one, gives the same value and declares nothing.  It is *settled* in a registry when
it declares nothing from that registry on; so a stable computation is settled once it has
been run.

Since a registry that is reached from another and leads back to it is that registry, a
sequence of computations is settled only if each of them is.
-/

namespace OpenApiTypings.Compilation

/-- The registry is only extended, and a second run in any registry that is reached
afterwards gives the same value and declares nothing. -/
def Stable (m : Compilation α) : Prop :=
  ∀ registry, registry.Reaches (m.run registry).enums ∧
    ∀ later, (m.run registry).enums.Reaches later →
      (m.run later).value = (m.run registry).value ∧ (m.run later).enums = later

namespace Stable

variable {m : Compilation α} {f : α → Compilation β}

theorem pure (a : α) : Stable (Pure.pure a : Compilation α) :=
  fun registry => ⟨Registry.Reaches.refl registry, fun _ _ => ⟨rfl, rfl⟩⟩

theorem note (event : Event) : Stable (Compilation.note event) :=
  fun registry => ⟨Registry.Reaches.refl registry, fun _ _ => ⟨rfl, rfl⟩⟩

theorem bind (hm : m.Stable) (hf : ∀ a, (f a).Stable) : Stable (m >>= f) := by
  intro registry
  obtain ⟨hreaches, hagain⟩ := hm registry
  obtain ⟨hreaches', hagain'⟩ := hf (m.run registry).value (m.run registry).enums
  refine ⟨hreaches.trans hreaches', fun later hlater => ?_⟩
  -- the second run starts behind both parts of the first one, so each part finds its own
  obtain ⟨hvalue, henums⟩ := hagain later (hreaches'.trans hlater)
  rw [run_bind, run_bind, hvalue, henums]
  exact hagain' later hlater

theorem mapM {g : α → Compilation β} {xs : List α} (hg : ∀ x ∈ xs, (g x).Stable) :
    Stable (xs.mapM g) :=
  mapM_of_bind (P := Stable) pure bind hg

end Stable

/-! ### Settled computations -/

/-- From the registry on, the computation declares nothing. -/
def SettledIn (m : Compilation α) (registry : Registry) : Prop :=
  ∀ later, registry.Reaches later → (m.run later).enums = later

/-- A stable computation is settled once it has been run. -/
theorem Stable.settledIn {m : Compilation α} (hm : m.Stable) (registry : Registry) :
    m.SettledIn (m.run registry).enums :=
  fun later hlater => ((hm registry).2 later hlater).2

namespace SettledIn

variable {m : Compilation α} {f : α → Compilation β} {registry later : Registry}

theorem pure (a : α) : SettledIn (Pure.pure a : Compilation α) registry := fun _ _ => rfl

theorem note (event : Event) : (Compilation.note event).SettledIn registry := fun _ _ => rfl

theorem bind (hm : m.SettledIn registry) (hf : ∀ a, (f a).SettledIn registry) :
    SettledIn (m >>= f) registry := by
  intro later hlater
  rw [run_bind, hm later hlater]
  exact hf _ later hlater

theorem mapM {g : α → Compilation β} {xs : List α}
    (hg : ∀ x ∈ xs, (g x).SettledIn registry) : SettledIn (xs.mapM g) registry :=
  mapM_of_bind (P := (SettledIn · registry)) pure bind hg

/-- In a registry where each of them is settled, the values of a list of computations are
those that each of them gives alone. -/
theorem mapM_value {g : α → Compilation β} {xs : List α}
    (hg : ∀ x ∈ xs, (g x).SettledIn registry) :
    ((xs.mapM g).run registry).value = xs.map fun x => ((g x).run registry).value := by
  induction xs with
  | nil => rfl
  | cons x rest ih =>
    have hhead := hg x (List.mem_cons_self ..) registry (Registry.Reaches.refl registry)
    have hrest := ih fun x' hx' => hg x' (List.mem_cons_of_mem _ hx')
    rw [List.mapM_cons]
    simp only [run_bind, run_pure, List.map_cons]
    rw [hhead, hrest]

/-- What two computations declare together neither of them declares. -/
theorem of_bind (hm : m.Stable) (hf : ∀ a, (f a).Stable)
    (h : SettledIn (m >>= f) registry) :
    m.SettledIn registry ∧
      ∀ later, registry.Reaches later → (f (m.run later).value).SettledIn later := by
  have hfirst : m.SettledIn registry := by
    intro later hlater
    have hback := ((hf (m.run later).value) (m.run later).enums).1
    have hboth := h later hlater
    rw [run_bind] at hboth
    rw [show ((f (m.run later).value).run (m.run later).enums).enums = later from hboth] at hback
    exact ((hm later).1).antisymm hback
  refine ⟨hfirst, fun later hlater last hlast => ?_⟩
  have hboth := h last (hlater.trans hlast)
  have hvalue := ((hm later).2 last (by rw [hfirst later hlater]; exact hlast)).1
  rw [run_bind, hfirst last (hlater.trans hlast), hvalue] at hboth
  exact hboth

theorem of_mapM {g : α → Compilation β} {xs : List α} (hg : ∀ x ∈ xs, (g x).Stable)
    (h : SettledIn (xs.mapM g) registry) : ∀ x ∈ xs, (g x).SettledIn registry := by
  induction xs with
  | nil => exact fun x hx => absurd hx List.not_mem_nil
  | cons x rest ih =>
    have htail : ∀ x' ∈ rest, (g x').Stable := fun x' hx' => hg x' (List.mem_cons_of_mem _ hx')
    rw [List.mapM_cons] at h
    obtain ⟨hhead, hrest⟩ := of_bind (hg x (List.mem_cons_self ..))
      (fun y => (Stable.mapM htail).bind fun ys => Stable.pure (y :: ys)) h
    have hothers := hrest registry (Registry.Reaches.refl registry)
    obtain ⟨hothers, -⟩ := of_bind (Stable.mapM htail) (fun ys => Stable.pure _) hothers
    intro x' hx'
    rcases List.mem_cons.mp hx' with rfl | hmem
    · exact hhead
    · exact ih htail hothers x' hmem

end SettledIn

end OpenApiTypings.Compilation

namespace OpenApiTypings

theorem EnumCall.stable (call : EnumCall) :
    (Schema.emitEnum call.hint call.values call.nullable).Stable :=
  fun registry => ⟨Registry.Reaches.call registry call, fun _ h => call.outcome_again h⟩

end OpenApiTypings
