import Mathlib.Data.List.Forall2
import Mathlib.Data.List.Basic

/-!
# Related lists

Lists whose members are related in pairs: every member of one has a partner in the
other.  Lists that agree member by member: what is done with one is done with the other.
The last member with a property, which is what counts where later members override earlier
ones, and a place behind a list, where nothing of the list is done otherwise.
-/

namespace OpenApiTypings

variable {α β : Type} {R : α → β → Prop}

theorem exists_right_of_mem {xs : List α} {ys : List β} (h : List.Forall₂ R xs ys) {x : α}
    (hx : x ∈ xs) : ∃ y ∈ ys, R x y := by
  induction h with
  | nil => exact absurd hx List.not_mem_nil
  | cons hhead _ ih =>
    rcases List.mem_cons.mp hx with rfl | hrest
    · exact ⟨_, List.mem_cons_self .., hhead⟩
    · obtain ⟨y, hy, hxy⟩ := ih hrest
      exact ⟨y, List.mem_cons_of_mem _ hy, hxy⟩

theorem exists_left_of_mem {xs : List α} {ys : List β} (h : List.Forall₂ R xs ys) {y : β}
    (hy : y ∈ ys) : ∃ x ∈ xs, R x y := by
  induction h with
  | nil => exact absurd hy List.not_mem_nil
  | cons hhead _ ih =>
    rcases List.mem_cons.mp hy with rfl | hrest
    · exact ⟨_, List.mem_cons_self .., hhead⟩
    · obtain ⟨x, hx, hxy⟩ := ih hrest
      exact ⟨x, List.mem_cons_of_mem _ hx, hxy⟩

/-- Lists whose members are equal, or both dropped, are the same list without the dropped
members. -/
theorem filter_eq_of_forall₂ {p : α → Bool} {xs ys : List α}
    (h : List.Forall₂ (fun x y => x = y ∨ p x = false ∧ p y = false) xs ys) :
    xs.filter p = ys.filter p := by
  induction h with
  | nil => rfl
  | cons hhead _ ih =>
    rcases hhead with rfl | ⟨hx, hy⟩
    · rw [List.filter_cons, List.filter_cons, ih]
    · rw [List.filter_cons, List.filter_cons, hx, hy, ih]
      rfl

/-- Results that are all there are those of the members, in order. -/
theorem forall₂_of_mapM_eq_some {f : α → Option β} {xs : List α} {ys : List β}
    (h : xs.mapM f = some ys) : List.Forall₂ (fun x y => f x = some y) xs ys := by
  induction xs generalizing ys with
  | nil =>
    cases h
    exact List.Forall₂.nil
  | cons x rest ih =>
    simp only [List.mapM_cons, Option.bind_eq_bind, Option.bind_eq_some_iff] at h
    obtain ⟨y, hy, others, hothers, hys⟩ := h
    cases hys
    exact List.Forall₂.cons hy (ih hothers)

theorem mapM_eq_some_of_forall₂ {f : α → Option β} {xs : List α} {ys : List β}
    (h : List.Forall₂ (fun x y => f x = some y) xs ys) : xs.mapM f = some ys := by
  induction h with
  | nil => rfl
  | cons hhead _ ih => simp [List.mapM_cons, hhead, ih]

/-- A partner for every member gives a list of partners. -/
theorem exists_forall₂ {xs : List α} (h : ∀ x ∈ xs, ∃ y, R x y) :
    ∃ ys, List.Forall₂ R xs ys := by
  induction xs with
  | nil => exact ⟨[], .nil⟩
  | cons x rest ih =>
    rw [List.forall_mem_cons] at h
    obtain ⟨y, hy⟩ := h.1
    obtain ⟨ys, hys⟩ := ih h.2
    exact ⟨y :: ys, .cons hy hys⟩

theorem isEmpty_eq_of_forall₂ {xs : List α} {ys : List β} (h : List.Forall₂ R xs ys) :
    xs.isEmpty = ys.isEmpty := by
  cases h <;> rfl

/-- Related lists are mapped alike by functions that agree on related members. -/
theorem map_eq_of_forall₂ {f : α → γ} {g : β → γ} {xs : List α} {ys : List β}
    (h : List.Forall₂ R xs ys) (hfg : ∀ x y, R x y → f x = g y) : xs.map f = ys.map g := by
  induction h with
  | nil => rfl
  | cons hhead _ ih => rw [List.map_cons, List.map_cons, hfg _ _ hhead, ih]

/-- Related lists are walked alike by functions that agree on related members. -/
theorem mapM_eq_of_forall₂ {m : Type → Type} [Monad m] [LawfulMonad m] {γ : Type} {f : α → m γ}
    {g : β → m γ} {xs : List α} {ys : List β} (h : List.Forall₂ R xs ys)
    (hfg : ∀ x y, R x y → f x = g y) : xs.mapM f = ys.mapM g := by
  induction h with
  | nil => rw [List.mapM_nil, List.mapM_nil]
  | cons hhead _ ih => rw [List.mapM_cons, List.mapM_cons, hfg _ _ hhead, ih]

/-- A list is walked alike by functions that agree on its members. -/
theorem mapM_congr_of_mem {m : Type → Type} [Monad m] [LawfulMonad m] {f g : α → m β}
    {xs : List α} (h : ∀ x ∈ xs, f x = g x) : xs.mapM f = xs.mapM g := by
  induction xs with
  | nil => rw [List.mapM_nil, List.mapM_nil]
  | cons x rest ih =>
    rw [List.mapM_cons, List.mapM_cons, h x (List.mem_cons_self ..),
      ih fun x' hx' => h x' (List.mem_cons_of_mem _ hx')]

/-- What holds of returning a value and is kept by sequencing holds of walking a list, when
it holds at each of its members. -/
theorem mapM_of_bind {m : Type → Type} [Monad m] [LawfulMonad m] {P : ∀ {γ : Type}, m γ → Prop}
    (hpure : ∀ {γ : Type} (a : γ), P (pure a))
    (hbind : ∀ {γ δ : Type} {x : m γ} {f : γ → m δ}, P x → (∀ a, P (f a)) → P (x >>= f))
    {g : α → m β} {xs : List α} (hg : ∀ x ∈ xs, P (g x)) : P (xs.mapM g) := by
  induction xs with
  | nil =>
    rw [List.mapM_nil]
    exact hpure []
  | cons x rest ih =>
    rw [List.mapM_cons]
    refine hbind (hg x (List.mem_cons_self ..)) fun y => ?_
    refine hbind (ih fun x' hx' => hg x' (List.mem_cons_of_mem _ hx')) fun ys => ?_
    exact hpure (y :: ys)

/-- What adds nothing may be left out of a list. -/
theorem flatMap_filter_of_nil {p : α → Bool} {f : α → List β} {xs : List α}
    (h : ∀ x ∈ xs, p x = false → f x = []) : (xs.filter p).flatMap f = xs.flatMap f := by
  induction xs with
  | nil => rfl
  | cons x rest ih =>
    rw [List.forall_mem_cons] at h
    rw [List.flatMap_cons, ← ih h.2]
    cases hx : p x with
    | true => rw [List.filter_cons_of_pos hx, List.flatMap_cons]
    | false => rw [List.filter_cons_of_neg (by simp [hx]), h.1 hx, List.nil_append]

theorem append_subset_append {xs xs' ys ys' : List α} (hx : xs ⊆ xs') (hy : ys ⊆ ys') :
    xs ++ ys ⊆ xs' ++ ys' :=
  List.append_subset_of_subset_of_subset (List.subset_append_of_subset_left _ hx)
    (List.subset_append_of_subset_right _ hy)

/-! ### The last member with a property -/

/-- Of the members with the property, this is the last one. -/
def LastWith (p : α → Prop) (xs : List α) (x : α) : Prop :=
  p x ∧ ∃ before behind, xs = before ++ x :: behind ∧ ∀ y ∈ behind, ¬ p y

namespace LastWith

variable {p : α → Prop} {q : β → Prop} {xs ys : List α} {x : α}

theorem mem (h : LastWith p xs x) : x ∈ xs := by
  obtain ⟨-, before, behind, rfl, -⟩ := h
  exact List.mem_append_right _ (List.mem_cons_self ..)

theorem not_nil : ¬ LastWith p [] x := fun h => absurd h.mem List.not_mem_nil

theorem cons_iff {y : α} :
    LastWith p (y :: ys) x ↔ LastWith p ys x ∨ x = y ∧ p y ∧ ∀ z ∈ ys, ¬ p z := by
  constructor
  · rintro ⟨hx, before, behind, hsplit, hbehind⟩
    rcases List.cons_eq_append_iff.mp hsplit with ⟨-, heq⟩ | ⟨rest, -, hrest⟩
    · cases heq
      exact .inr ⟨rfl, hx, hbehind⟩
    · exact .inl ⟨hx, rest, behind, hrest, hbehind⟩
  · rintro (⟨hx, before, behind, rfl, hbehind⟩ | ⟨rfl, hx, hbehind⟩)
    · exact ⟨hx, y :: before, behind, rfl, hbehind⟩
    · exact ⟨hx, [], ys, rfl, hbehind⟩

/-- A list that is put behind another one overrides it. -/
theorem append_iff :
    LastWith p (xs ++ ys) x ↔ LastWith p ys x ∨ (∀ y ∈ ys, ¬ p y) ∧ LastWith p xs x := by
  induction xs with
  | nil => simp [not_nil]
  | cons z rest ih =>
    rw [List.cons_append, cons_iff, cons_iff, ih, List.forall_mem_append]
    tauto

theorem exists_left {zs : List β} (h : List.Forall₂ R xs zs)
    (hpq : ∀ x y, R x y → (p x ↔ q y)) {y : β} (hy : LastWith q zs y) :
    ∃ x, R x y ∧ LastWith p xs x := by
  induction h with
  | nil => exact absurd hy not_nil
  | @cons x y' rest rest' hhead hrest ih =>
    rcases cons_iff.mp hy with hlast | ⟨rfl, hq, hnone⟩
    · obtain ⟨x', hR, hx'⟩ := ih hlast
      exact ⟨x', hR, cons_iff.mpr (.inl hx')⟩
    · refine ⟨x, hhead, cons_iff.mpr (.inr ⟨rfl, (hpq x y hhead).mpr hq, fun z hz hpz => ?_⟩)⟩
      obtain ⟨z', hz', hR⟩ := exists_right_of_mem hrest hz
      exact hnone z' hz' ((hpq z z' hR).mp hpz)

end LastWith

/-! ### A place behind the list -/

theorem mapIdx_ite_of_length_le {f g : α → β} {xs : List α} {n : Nat} (h : xs.length ≤ n) :
    xs.mapIdx (fun i x => if i = n then f x else g x) = xs.map g := by
  refine List.ext_getElem (by simp) fun i hi _ => ?_
  have hlt : i < n := Nat.lt_of_lt_of_le (by simpa using hi) h
  simp [Nat.ne_of_lt hlt]

end OpenApiTypings
