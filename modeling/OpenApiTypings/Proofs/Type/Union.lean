import Mathlib.Data.List.Nodup
import OpenApiTypings.Type.Union

/-!
# Members of unions and fields of objects

Repeated members are left out of a union and the fields of an object are sorted.  Both
keep what matters: nothing new comes in, no field is lost, and of every member one with
the same text is left.
-/

namespace OpenApiTypings

/-! ### Distinct members -/

section Distinct

variable {α : Type} {text : α → String}

theorem mem_of_mem_distinctBy {x : α} {members : List α}
    (hx : x ∈ distinctBy text members) : x ∈ members := by
  induction members with
  | nil => exact hx
  | cons y rest ih =>
    rw [distinctBy] at hx
    rcases List.mem_cons.mp hx with rfl | hrest
    · exact List.mem_cons_self ..
    · exact List.mem_cons_of_mem _ (ih (List.mem_filter.mp hrest).1)

theorem exists_mem_distinctBy {x : α} {members : List α} (hx : x ∈ members) :
    ∃ y ∈ distinctBy text members, text y = text x := by
  induction members with
  | nil => exact absurd hx List.not_mem_nil
  | cons z rest ih =>
    rw [distinctBy]
    by_cases hsame : text x = text z
    · exact ⟨z, List.mem_cons_self .., hsame.symm⟩
    · rcases List.mem_cons.mp hx with rfl | hrest
      · exact absurd rfl hsame
      · obtain ⟨y, hy, hyx⟩ := ih hrest
        refine ⟨y, List.mem_cons_of_mem _ (List.mem_filter.mpr ⟨hy, ?_⟩), hyx⟩
        rw [decide_eq_true_eq, hyx]
        exact hsame

/-- The alternatives are members, unless one of the members absorbs them all. -/
theorem mem_of_alternatives? {absorbing : String} {members distinct : List α}
    (h : alternatives? text absorbing members = some distinct) {x : α} (hx : x ∈ distinct) :
    x ∈ members := by
  unfold alternatives? at h
  split at h
  · cases h
  · cases h
    exact (List.mem_filter.mp (mem_of_mem_distinctBy hx)).1

theorem exists_mem_alternatives? {absorbing : String} {members distinct : List α}
    (h : alternatives? text absorbing members = some distinct) {x : α} (hx : x ∈ members)
    (htext : text x ≠ "") : ∃ y ∈ distinct, text y = text x := by
  unfold alternatives? at h
  split at h
  · cases h
  · cases h
    apply exists_mem_distinctBy
    exact List.mem_filter.mpr ⟨hx, decide_eq_true htext⟩

theorem map_distinctBy (text : α → String) (members : List α) :
    (distinctBy text members).map text = distinctBy id (members.map text) := by
  induction members with
  | nil => rfl
  | cons x rest ih =>
    rw [distinctBy, List.map_cons, List.map_cons, distinctBy, ← ih, List.filter_map]
    rfl

theorem map_alternatives? (text : α → String) (absorbing : String) (members : List α) :
    (alternatives? text absorbing members).map (List.map text) =
      alternatives? id absorbing (members.map text) := by
  have hany : (members.map text).any (fun m => id m = absorbing) =
      members.any fun m => text m = absorbing := List.any_map
  have hfilter : (members.map text).filter (fun m => id m ≠ "") =
      (members.filter fun m => text m ≠ "").map text := List.filter_map
  unfold alternatives?
  rw [hany, hfilter, ← map_distinctBy]
  split
  · rfl
  · rfl

end Distinct

/-- The key types are members, unless `any` stands for them all. -/
theorem KeyType.mem_of_mem_unionDistinct {members : List KeyType}
    (hany : KeyType.unionDistinct members ≠ [.any]) {key : KeyType}
    (hkey : key ∈ KeyType.unionDistinct members) : key ∈ members := by
  revert hany hkey
  unfold KeyType.unionDistinct
  split
  · exact fun hany => absurd rfl hany
  · exact fun hany => absurd rfl hany
  · rename_i hdistinct
    exact fun _ => mem_of_alternatives? hdistinct

/-! ### Sorted fields -/

namespace Field

variable {τ : Type}

theorem perm_insertByName (field : Field τ) (fields : List (Field τ)) :
    (insertByName field fields).Perm (field :: fields) := by
  induction fields with
  | nil => exact List.Perm.refl _
  | cons head rest ih =>
    rw [insertByName]
    split
    · exact (ih.cons head).trans (List.Perm.swap ..)
    · exact List.Perm.refl _

theorem perm_sortByName (fields : List (Field τ)) : (sortByName fields).Perm fields := by
  induction fields with
  | nil => exact List.Perm.refl _
  | cons head rest ih => exact (perm_insertByName head _).trans (ih.cons head)

theorem mem_sortByName {field : Field τ} {fields : List (Field τ)} :
    field ∈ sortByName fields ↔ field ∈ fields :=
  (perm_sortByName fields).mem_iff

theorem pairwise_insertByName {field : Field τ} {fields : List (Field τ)}
    (h : fields.Pairwise fun f g => ¬g.name < f.name) :
    (insertByName field fields).Pairwise fun f g => ¬g.name < f.name := by
  induction fields with
  | nil => exact List.pairwise_singleton ..
  | cons head rest ih =>
    obtain ⟨hhead, hrest⟩ := List.pairwise_cons.mp h
    rw [insertByName]
    split
    · rename_i hlt
      refine List.pairwise_cons.mpr ⟨fun other hother => ?_, ih hrest⟩
      rcases List.mem_cons.mp ((perm_insertByName field rest).mem_iff.mp hother) with rfl | hmem
      · exact String.lt_asymm hlt
      · exact hhead other hmem
    · rename_i hnot
      refine List.pairwise_cons.mpr ⟨fun other hother => ?_, h⟩
      rcases List.mem_cons.mp hother with rfl | hmem
      · exact hnot
      · intro hlt
        have hle := String.le_trans (String.not_lt.mp hnot) (String.not_lt.mp (hhead other hmem))
        exact String.not_lt.mpr hle hlt

theorem pairwise_sortByName (fields : List (Field τ)) :
    (sortByName fields).Pairwise fun f g => ¬g.name < f.name := by
  induction fields with
  | nil => exact List.Pairwise.nil
  | cons head rest ih => exact pairwise_insertByName ih

/-- Where the names are distinct, the order in which fields are given does not matter. -/
theorem sortByName_eq_of_perm {fields fields' : List (Field τ)}
    (hnames : (fields.map Field.name).Nodup) (h : fields.Perm fields') :
    sortByName fields = sortByName fields' := by
  refine List.Perm.eq_of_pairwise (fun f g hf hg hle hge => ?_) (pairwise_sortByName fields)
    (pairwise_sortByName fields') ((perm_sortByName fields).trans
      (h.trans (perm_sortByName fields').symm))
  have hname : f.name = g.name := String.le_antisymm (String.not_lt.mp hle) (String.not_lt.mp hge)
  have hg : g ∈ fields := h.mem_iff.mpr (mem_sortByName.mp hg)
  exact List.inj_on_of_nodup_map hnames (mem_sortByName.mp hf) hg hname

end Field

end OpenApiTypings
