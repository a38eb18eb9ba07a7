import OpenApiTypings.Proofs.Lists
import OpenApiTypings.Table

/-!
# Look-ups in tables

Setting a key changes the look-up of that key alone, whatever the order of the
entries.  Sorting a table adds no entry and loses no key, so what holds of all entries
before sorting holds of all entries after it.  It keeps the last entry of each key, so where
the keys are distinct it loses no entry either, and the order in which the entries were given
does not matter.
-/

namespace OpenApiTypings.Table

/-! ### Setting a key -/

section Lookup

variable {κ α : Type} [LT κ] [DecidableLT κ] [DecidableEq κ] [BEq κ] [LawfulBEq κ]

theorem lookup_insert_self (key : κ) (value : α) (entries : List (κ × α)) :
    List.lookup key (insert key value entries) = some value := by
  induction entries with
  | nil => simp [insert]
  | cons entry rest ih =>
    obtain ⟨k, v⟩ := entry
    simp only [insert]
    by_cases hlt : key < k
    · rw [if_pos hlt, List.lookup_cons_self]
    · by_cases heq : key = k
      · rw [if_neg hlt, if_pos heq, List.lookup_cons_self]
      · rw [if_neg hlt, if_neg heq, List.lookup_cons, beq_eq_false_iff_ne.mpr heq]
        exact ih

theorem lookup_insert_of_ne {key other : κ} (hne : other ≠ key) (value : α)
    (entries : List (κ × α)) :
    List.lookup other (insert key value entries) = List.lookup other entries := by
  induction entries with
  | nil => simp [insert, hne]
  | cons entry rest ih =>
    obtain ⟨k, v⟩ := entry
    simp only [insert]
    by_cases hlt : key < k
    · rw [if_pos hlt, List.lookup_cons, beq_eq_false_iff_ne.mpr hne]
    · by_cases heq : key = k
      · subst heq
        rw [if_neg hlt, if_pos rfl, List.lookup_cons, List.lookup_cons,
          beq_eq_false_iff_ne.mpr hne]
      · rw [if_neg hlt, if_neg heq, List.lookup_cons, List.lookup_cons, ih]

end Lookup

theorem lookup_filter_key {κ α : Type} [BEq κ] [LawfulBEq κ] (p : κ → Bool) (key : κ)
    (entries : List (κ × α)) :
    List.lookup key (entries.filter fun entry => p entry.1) =
      if p key then List.lookup key entries else none := by
  induction entries with
  | nil => simp
  | cons entry rest ih =>
    obtain ⟨other, value⟩ := entry
    rw [List.filter_cons]
    by_cases hkey : key = other
    · subst hkey
      split
      · rw [List.lookup_cons_self, List.lookup_cons_self]
      · rw [ih]
        split
        · contradiction
        · rfl
    · have hskip : List.lookup key ((other, value) :: rest) = List.lookup key rest := by
        rw [List.lookup_cons, beq_eq_false_iff_ne.mpr hkey]
      rw [hskip, ← ih]
      split
      · rw [List.lookup_cons, beq_eq_false_iff_ne.mpr hkey]
      · rfl

/-! ### Entries -/

section Entries

variable {κ α : Type} [LT κ] [DecidableLT κ] [DecidableEq κ]

theorem mem_of_mem_insert {key : κ} {value : α} {entry : κ × α}
    {entries : List (κ × α)} (hmem : entry ∈ insert key value entries) :
    entry = (key, value) ∨ entry ∈ entries := by
  induction entries with
  | nil => exact Or.inl (List.mem_singleton.mp hmem)
  | cons head rest ih =>
    obtain ⟨k, v⟩ := head
    simp only [insert] at hmem
    split at hmem
    · exact List.mem_cons.mp hmem
    · split at hmem
      · rcases List.mem_cons.mp hmem with hentry | hrest
        · exact Or.inl hentry
        · exact Or.inr (List.mem_cons_of_mem _ hrest)
      · rcases List.mem_cons.mp hmem with hentry | hrest
        · exact Or.inr (hentry ▸ List.mem_cons_self ..)
        · rcases ih hrest with hnew | hold
          · exact Or.inl hnew
          · exact Or.inr (List.mem_cons_of_mem _ hold)

theorem mem_of_mem_insertNew {key : κ} {value : α} {entry : κ × α}
    {entries : List (κ × α)} (hmem : entry ∈ insertNew key value entries) :
    entry = (key, value) ∨ entry ∈ entries := by
  induction entries with
  | nil => exact Or.inl (List.mem_singleton.mp hmem)
  | cons head rest ih =>
    obtain ⟨k, v⟩ := head
    simp only [insertNew] at hmem
    split at hmem
    · exact List.mem_cons.mp hmem
    · split at hmem
      · exact Or.inr hmem
      · rcases List.mem_cons.mp hmem with hentry | hrest
        · exact Or.inr (hentry ▸ List.mem_cons_self ..)
        · rcases ih hrest with hnew | hold
          · exact Or.inl hnew
          · exact Or.inr (List.mem_cons_of_mem _ hold)

theorem mem_of_mem_sorted {entry : κ × α} {entries : List (κ × α)}
    (hmem : entry ∈ sorted entries) : entry ∈ entries := by
  induction entries with
  | nil => exact hmem
  | cons head rest ih =>
    rcases mem_of_mem_insertNew hmem with hnew | hold
    · exact hnew ▸ List.mem_cons_self ..
    · exact List.mem_cons_of_mem _ (ih hold)

theorem mem_keys_insertNew {key other : κ} {value : α} {entries : List (κ × α)} :
    other ∈ (insertNew key value entries).map Prod.fst ↔
      other = key ∨ other ∈ entries.map Prod.fst := by
  induction entries with
  | nil => simp [insertNew]
  | cons head rest ih =>
    obtain ⟨k, v⟩ := head
    simp only [insertNew]
    split
    · rw [List.map_cons, List.mem_cons]
    split
    · rename_i hsame
      rw [List.map_cons, List.mem_cons, hsame, ← or_assoc, or_self]
    · rw [List.map_cons, List.mem_cons, ih, List.map_cons, List.mem_cons]
      exact or_left_comm

/-- Sorting keeps the keys. -/
theorem mem_keys_sorted {key : κ} {entries : List (κ × α)} :
    key ∈ (sorted entries).map Prod.fst ↔ key ∈ entries.map Prod.fst := by
  induction entries with
  | nil => exact Iff.rfl
  | cons head rest ih =>
    rw [List.map_cons, List.mem_cons, ← ih]
    exact mem_keys_insertNew

/-- A new entry is put among the others, and nothing else is changed. -/
theorem perm_insertNew {key : κ} {value : α} {entries : List (κ × α)}
    (hnew : key ∉ entries.map Prod.fst) :
    (insertNew key value entries).Perm ((key, value) :: entries) := by
  induction entries with
  | nil => exact List.Perm.refl _
  | cons head rest ih =>
    obtain ⟨k, v⟩ := head
    rw [List.map_cons, List.mem_cons, not_or] at hnew
    simp only [insertNew, if_neg hnew.1]
    split
    · exact List.Perm.refl _
    · exact ((ih hnew.2).cons (k, v)).trans (List.Perm.swap ..)

/-- Sorting loses no entry of a table whose keys are distinct. -/
theorem perm_sorted {entries : List (κ × α)} (hkeys : (entries.map Prod.fst).Nodup) :
    (sorted entries).Perm entries := by
  induction entries with
  | nil => exact List.Perm.refl _
  | cons head rest ih =>
    rw [List.map_cons, List.nodup_cons] at hkeys
    have hnew : head.1 ∉ (sorted rest).map Prod.fst := fun hmem => hkeys.1 (mem_keys_sorted.mp hmem)
    exact (perm_insertNew hnew).trans ((ih hkeys.2).cons head)

theorem mem_sorted_of_nodup {entry : κ × α} {entries : List (κ × α)}
    (hkeys : (entries.map Prod.fst).Nodup) (hmem : entry ∈ entries) : entry ∈ sorted entries :=
  (perm_sorted hkeys).mem_iff.mpr hmem

theorem forall₂_insertNew {R : κ × α → κ × α → Prop} (hR : ∀ e e', R e e' → e.1 = e'.1)
    {key : κ} {value value' : α} (hnew : R (key, value) (key, value'))
    {entries entries' : List (κ × α)} (h : List.Forall₂ R entries entries') :
    List.Forall₂ R (insertNew key value entries) (insertNew key value' entries') := by
  induction h with
  | nil => exact List.Forall₂.cons hnew List.Forall₂.nil
  | @cons head head' rest rest' hhead hrest ih =>
    obtain ⟨k, v⟩ := head
    obtain ⟨k', v'⟩ := head'
    obtain rfl : k = k' := hR _ _ hhead
    simp only [insertNew]
    split
    · exact List.Forall₂.cons hnew (List.Forall₂.cons hhead hrest)
    split
    · exact List.Forall₂.cons hhead hrest
    · exact List.Forall₂.cons hhead ih

/-- Tables whose entries are related in pairs, under the same keys, are so after sorting. -/
theorem forall₂_sorted {R : κ × α → κ × α → Prop} (hR : ∀ e e', R e e' → e.1 = e'.1)
    {entries entries' : List (κ × α)} (h : List.Forall₂ R entries entries') :
    List.Forall₂ R (sorted entries) (sorted entries') := by
  induction h with
  | nil => exact List.Forall₂.nil
  | @cons head head' rest rest' hhead _ ih =>
    obtain ⟨key, value⟩ := head
    obtain ⟨key', value'⟩ := head'
    obtain rfl : key = key' := hR _ _ hhead
    exact forall₂_insertNew hR hhead ih

end Entries

/-- Tables whose entries have the same keys in pairs. -/
theorem keys_eq_of_forall₂ {R : String × α → String × β → Prop}
    (hR : ∀ entry entry', R entry entry' → entry'.1 = entry.1) {table : Table α} {table' : Table β}
    (h : List.Forall₂ R table table') : table'.keys = table.keys := by
  induction h with
  | nil => rfl
  | cons hhead _ ih => exact congrArg₂ List.cons (hR _ _ hhead) ih

/-- Tables that are the same but for the value of one entry are told apart by the look-up
of its key alone. -/
theorem get?_eq_or (key : String) (value value' : α) (before behind : Table α)
    (other : String) :
    get? (before ++ (key, value') :: behind) other =
        get? (before ++ (key, value) :: behind) other ∨
      other = key ∧ get? (before ++ (key, value) :: behind) other = some value ∧
        get? (before ++ (key, value') :: behind) other = some value' := by
  unfold get?
  rw [List.lookup_append, List.lookup_append]
  cases List.lookup other before with
  | some found => exact Or.inl rfl
  | none =>
    by_cases hkey : other = key
    · subst hkey
      right
      rw [List.lookup_cons_self, List.lookup_cons_self]
      exact ⟨rfl, rfl, rfl⟩
    · left
      rw [List.lookup_cons, List.lookup_cons, beq_eq_false_iff_ne.mpr hkey]

theorem get?_append_cons_self {key : String} {before : Table α} (hnone : before.get? key = none)
    (value : α) (behind : Table α) : get? (before ++ (key, value) :: behind) key = some value := by
  unfold get? at hnone ⊢
  rw [List.lookup_append, hnone, List.lookup_cons_self]
  rfl

theorem get?_append_cons_of_ne {key other : String} (hne : other ≠ key) (value : α)
    (before behind : Table α) :
    get? (before ++ (key, value) :: behind) other = get? (before ++ behind) other := by
  unfold get?
  rw [List.lookup_append, List.lookup_append, List.lookup_cons, beq_eq_false_iff_ne.mpr hne]

theorem get?_eq_none_of_notMem {table : Table α} {key : String} (h : key ∉ table.keys) :
    table.get? key = none := by
  rw [get?, List.lookup_eq_none_iff]
  intro entry hentry
  rw [bne_iff_ne]
  rintro rfl
  exact h (List.mem_map_of_mem hentry)

/-- What a look-up finds is an entry. -/
theorem mem_of_get? {table : Table α} {key : String} {value : α}
    (hget : table.get? key = some value) : (key, value) ∈ table := by
  induction table with
  | nil => exact absurd hget (by simp [get?])
  | cons entry rest ih =>
    obtain ⟨k, v⟩ := entry
    simp only [get?, List.lookup_cons] at hget
    by_cases heq : key = k
    · subst heq
      simp only [beq_self_eq_true, Option.some.injEq] at hget
      exact hget ▸ List.mem_cons_self ..
    · rw [beq_eq_false_iff_ne.mpr heq] at hget
      exact List.mem_cons_of_mem _ (ih hget)

/-! ### The order of the entries -/

section Ordered

variable {κ α : Type} [LT κ] [DecidableLT κ] [DecidableEq κ] [IsTrans κ (· < ·)]
  [Std.Trichotomous (· < · : κ → κ → Prop)]

theorem pairwise_insertNew {key : κ} {value : α} {entries : List (κ × α)}
    (h : entries.Pairwise fun entry other => entry.1 < other.1) :
    (insertNew key value entries).Pairwise fun entry other => entry.1 < other.1 := by
  induction entries with
  | nil => exact List.pairwise_singleton ..
  | cons head rest ih =>
    obtain ⟨k, v⟩ := head
    obtain ⟨hhead, hrest⟩ := List.pairwise_cons.mp h
    simp only [insertNew]
    split
    · rename_i hlt
      refine List.pairwise_cons.mpr ⟨fun other hother => ?_, h⟩
      rcases List.mem_cons.mp hother with rfl | hmem
      · exact hlt
      · exact IsTrans.trans _ _ _ hlt (hhead other hmem)
    split
    · exact h
    · rename_i hlt hne
      have hbehind : k < key := by
        by_contra hnot
        exact hne (Std.Trichotomous.trichotomous key k hlt hnot)
      refine List.pairwise_cons.mpr ⟨fun other hother => ?_, ih hrest⟩
      rcases mem_of_mem_insertNew hother with rfl | hmem
      · exact hbehind
      · exact hhead other hmem

/-- The keys of a sorted table increase. -/
theorem pairwise_sorted (entries : List (κ × α)) :
    (sorted entries).Pairwise fun entry other => entry.1 < other.1 := by
  induction entries with
  | nil => exact List.Pairwise.nil
  | cons head rest ih => exact pairwise_insertNew ih

variable [Std.Irrefl (· < · : κ → κ → Prop)]

theorem nodup_keys_sorted (entries : List (κ × α)) : ((sorted entries).map Prod.fst).Nodup := by
  refine List.Pairwise.map _ ?_ (pairwise_sorted entries)
  intro entry other hlt heq
  exact Std.Irrefl.irrefl _ (heq ▸ hlt)

omit [Std.Trichotomous (· < · : κ → κ → Prop)] in
/-- Where the keys increase, an entry is put in only if its key is new. -/
theorem mem_insertNew_iff {key : κ} {value : α} {entry : κ × α} {entries : List (κ × α)}
    (h : entries.Pairwise fun entry other => entry.1 < other.1) :
    entry ∈ insertNew key value entries ↔
      entry ∈ entries ∨ entry = (key, value) ∧ key ∉ entries.map Prod.fst := by
  -- a key that is there is found, since no key in front of it is larger
  by_cases hkey : key ∈ entries.map Prod.fst
  · have hsame : insertNew key value entries = entries := by
      induction entries with
      | nil => cases hkey
      | cons head rest ih =>
        obtain ⟨k, v⟩ := head
        obtain ⟨hhead, hrest⟩ := List.pairwise_cons.mp h
        simp only [insertNew]
        rcases List.mem_cons.mp hkey with rfl | hmem
        · rw [if_neg (Std.Irrefl.irrefl _), if_pos rfl]
        · obtain ⟨other, hother, rfl⟩ := List.mem_map.mp hmem
          have hlt := hhead other hother
          rw [if_neg fun hgt => Std.Irrefl.irrefl _ (IsTrans.trans _ _ _ hlt hgt),
            if_neg fun heq => Std.Irrefl.irrefl _ (heq ▸ hlt), ih hrest hmem]
    rw [hsame]
    simp [hkey]
  · rw [(perm_insertNew hkey).mem_iff, List.mem_cons, or_comm]
    simp [hkey]

/-- What sorting keeps of each key is its last entry. -/
theorem mem_sorted_iff {entry : κ × α} {entries : List (κ × α)} :
    entry ∈ sorted entries ↔ LastWith (fun other => other.1 = entry.1) entries entry := by
  induction entries with
  | nil => exact ⟨fun h => absurd h List.not_mem_nil, fun h => absurd h LastWith.not_nil⟩
  | cons head rest ih =>
    have hinsert : entry ∈ sorted (head :: rest) ↔ entry ∈ sorted rest ∨
        entry = head ∧ head.1 ∉ (sorted rest).map Prod.fst :=
      mem_insertNew_iff (pairwise_sorted rest)
    rw [hinsert, ih, LastWith.cons_iff, mem_keys_sorted]
    refine or_congr_right (and_congr_right ?_)
    rintro rfl
    simp only [List.mem_map, not_exists, not_and, true_and]

end Ordered

/-- Tables with the same entries are sorted alike. -/
theorem sorted_eq_of_perm {entries entries' : Table α} (hkeys : entries.keys.Nodup)
    (h : entries.Perm entries') : sorted entries = sorted entries' := by
  have hkeys' : entries'.keys.Nodup := (h.map Prod.fst).nodup_iff.mp hkeys
  refine List.Perm.eq_of_pairwise (fun entry other _ _ hlt hgt => ?_) (pairwise_sorted entries)
    (pairwise_sorted entries') ?_
  · exact absurd hgt (String.lt_asymm hlt)
  · exact (perm_sorted hkeys).trans (h.trans (perm_sorted hkeys').symm)

/-- Tables with the same entries give the same look-ups. -/
theorem get?_eq_of_perm {table table' : Table α} (hkeys : table.keys.Nodup)
    (h : table.Perm table') (key : String) : table.get? key = table'.get? key := by
  induction h with
  | nil => rfl
  | cons entry _ ih =>
    obtain ⟨k, v⟩ := entry
    have hrest := ih (List.nodup_cons.mp hkeys).2
    unfold get? at hrest ⊢
    rw [List.lookup_cons, List.lookup_cons, hrest]
  | swap first second rest =>
    obtain ⟨k, v⟩ := first
    obtain ⟨l, w⟩ := second
    have hne : l ≠ k := fun heq => (List.nodup_cons.mp hkeys).1 (heq ▸ List.mem_cons_self ..)
    unfold get?
    simp only [List.lookup_cons]
    by_cases hk : key = k
    · subst hk
      rw [beq_eq_false_iff_ne.mpr hne.symm]
    · rw [beq_eq_false_iff_ne.mpr hk]
  | trans hfirst _ ih ih' =>
    exact (ih hkeys).trans (ih' ((hfirst.map Prod.fst).nodup_iff.mp hkeys))

end OpenApiTypings.Table
