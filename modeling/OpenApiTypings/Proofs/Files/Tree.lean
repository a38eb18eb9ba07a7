import OpenApiTypings.Files.Tree
import OpenApiTypings.Proofs.Table

/-!
# Reading what was written

A file that was written is read back as it was written, through whatever links and
upward steps its path goes.  Writing changes one location, and the way to it passes
through other locations only: what stands on the way is a directory or a link, what
stands at the end is a file or nothing.  Removing changes a location and those below it.
-/

namespace OpenApiTypings

/-- A file can be written where a path leads: there is one, or nothing yet. -/
inductive Place.TakesFile (location : Location) : Place → Prop where
  | file (content : Content) : TakesFile location (.found location (.file content))
  | vacant : TakesFile location (.vacant location false)

namespace FileTree

/-- Below the top, with a file or nothing at it. -/
def IsFree (tree : FileTree) (location : Location) : Prop :=
  location ≠ [] ∧
    ∀ entry, tree.entryAt? location = some entry → ∃ content, entry = .file content

variable {tree : FileTree} {location : Location}

/-! ### Entries of the changed tree -/

theorem entryAt?_put_self (tree : FileTree) (hloc : location ≠ []) (entry : Entry) :
    (tree.put location entry).entryAt? location = some entry := by
  unfold entryAt? put
  rw [if_neg (by simpa using hloc)]
  exact Table.lookup_insert_self location entry tree.entries

theorem entryAt?_put_of_ne (tree : FileTree) {other : Location} (hne : other ≠ location)
    (entry : Entry) :
    (tree.put location entry).entryAt? other = tree.entryAt? other := by
  unfold entryAt? put
  by_cases hother : other.isEmpty
  · rw [if_pos hother, if_pos hother]
  · rw [if_neg hother, if_neg hother]
    exact Table.lookup_insert_of_ne hne entry tree.entries

theorem IsFree.entryAt?_put (hfree : tree.IsFree location) {other : Location}
    {entry : Entry} (hentry : tree.entryAt? other = some entry)
    (hfile : ∀ content, entry ≠ .file content) (new : Entry) :
    (tree.put location new).entryAt? other = some entry := by
  have hne : other ≠ location := by
    rintro rfl
    obtain ⟨content, hcontent⟩ := hfree.2 entry hentry
    exact hfile content hcontent
  rw [entryAt?_put_of_ne tree hne, hentry]

/-! ### Ways to a file -/

/-- The same names lead to the file that was written; `follow` and `changed` go on
behind a link before and after. -/
theorem descend_put {place : Place} {content : Content}
    {follow changed : Location → List String → Except FileFault Place}
    (hfollow : ∀ start names, follow start names = .ok place → tree.IsFree location ∧
      changed start names = .ok (.found location (.file content)))
    (hplace : place.TakesFile location) {names : List String} {here : Location}
    (hdescend : tree.descend true follow names here = .ok place) :
    tree.IsFree location ∧
      (tree.put location (.file content)).descend true changed names here =
        .ok (.found location (.file content)) := by
  induction names generalizing here with
  | nil =>
    cases hdescend
    cases hplace
  | cons name rest ih =>
    unfold descend at hdescend ⊢
    by_cases hidle : Path.isIdle name
    · rw [if_pos hidle] at hdescend ⊢
      exact ih hdescend
    rw [if_neg hidle] at hdescend ⊢
    by_cases hup : name = ".."
    · rw [if_pos hup] at hdescend ⊢
      exact ih hdescend
    rw [if_neg hup] at hdescend ⊢
    by_cases hlong : maxName < name.utf8ByteSize
    · rw [if_pos hlong] at hdescend
      cases hdescend
    rw [if_neg hlong] at hdescend ⊢
    have hend : here ++ [name] ≠ [] := by simp
    cases hentry : tree.entryAt? (here ++ [name]) with
    | none =>
      simp only [hentry] at hdescend
      split at hdescend
      · injection hdescend with hvacant
        subst hvacant
        generalize hrest : (!rest.isEmpty) = asDirectory at hplace
        cases hplace
        refine ⟨⟨hend, fun entry h => absurd (hentry.symm.trans h) (by simp)⟩, ?_⟩
        have hlast : rest.isEmpty = true := by simpa using hrest
        simp only [entryAt?_put_self tree hend, hlast, if_true]
      · cases hdescend
    | some entry =>
      cases entry with
      | directory =>
        simp only [hentry] at hdescend
        obtain ⟨hfree, hchanged⟩ := ih hdescend
        refine ⟨hfree, ?_⟩
        simp only [hfree.entryAt?_put hentry (by simp)]
        exact hchanged
      | file old =>
        simp only [hentry, if_true] at hdescend
        split at hdescend
        · rename_i hlast
          injection hdescend with hfound
          subst hfound
          cases hplace
          refine ⟨⟨hend, fun entry h => ⟨old, Option.some.inj (h.symm.trans hentry)⟩⟩, ?_⟩
          simp only [entryAt?_put_self tree hend, hlast, if_true]
        · cases hdescend
      | link target =>
        simp only [hentry, Bool.not_true, Bool.and_false, Bool.false_eq_true, if_false]
          at hdescend
        obtain ⟨hfree, hchanged⟩ := hfollow _ _ hdescend
        refine ⟨hfree, ?_⟩
        simp only [hfree.entryAt?_put hentry (by simp), Bool.not_true, Bool.and_false,
          Bool.false_eq_true, if_false]
        exact hchanged

theorem walk_put {place : Place} (content : Content) (hplace : place.TakesFile location)
    {links : Nat} {here : Location} {names : List String}
    (hwalk : tree.walk true links here names = .ok place) :
    tree.IsFree location ∧
      (tree.put location (.file content)).walk true links here names =
        .ok (.found location (.file content)) := by
  induction links generalizing here names with
  | zero => cases hwalk
  | succ links ih => exact descend_put (fun _ _ hfollow => ih hfollow) hplace hwalk

theorem locate_put {place : Place} (content : Content) (hplace : place.TakesFile location)
    {path : String} (hlocate : tree.locate true path = .ok place) :
    (tree.put location (.file content)).locate true path =
      .ok (.found location (.file content)) := by
  unfold locate at hlocate ⊢
  by_cases hempty : path = ""
  · rw [if_pos hempty] at hlocate
    cases hlocate
  rw [if_neg hempty] at hlocate ⊢
  by_cases hbad : path.toList.contains (Char.ofNat 0)
  · rw [if_pos hbad] at hlocate
    cases hlocate
  rw [if_neg hbad] at hlocate ⊢
  by_cases hlong : maxPath < path.utf8ByteSize
  · rw [if_pos hlong] at hlocate
    cases hlocate
  rw [if_neg hlong] at hlocate ⊢
  exact (walk_put content hplace hlocate).2

/-! ### Reading a file -/

/-- What writing a file changes. -/
theorem exists_of_write {path : String} {content : Content} {changed : FileTree}
    (hwrite : tree.write path content = .ok changed) :
    ∃ place location, tree.locate true path = .ok place ∧ place.TakesFile location ∧
      changed = tree.put location (.file content) := by
  unfold write at hwrite
  cases hlocate : tree.locate true path with
  | error fault =>
    rw [hlocate] at hwrite
    cases hwrite
  | ok place =>
    rw [hlocate] at hwrite
    cases place with
    | found location entry =>
      cases entry with
      | file old =>
        cases hwrite
        exact ⟨_, location, rfl, .file old, rfl⟩
      | directory => cases hwrite
      | link target => cases hwrite
    | vacant location asDirectory =>
      cases asDirectory with
      | false =>
        cases hwrite
        exact ⟨_, location, rfl, .vacant, rfl⟩
      | true => cases hwrite

/-- What was written is read. -/
theorem readText_of_write {path s : String} {changed : FileTree}
    (hwrite : tree.write path (.text s) = .ok changed) :
    changed.readText path = .ok s := by
  obtain ⟨place, location, hlocate, hplace, rfl⟩ := exists_of_write hwrite
  unfold readText FileTree.content
  rw [locate_put (.text s) hplace hlocate]
  rfl

/-! ### Removing -/

/-- Removing takes away what a path leads to and all that lies below it, and nothing else. -/
theorem exists_of_remove {path : String} {changed : FileTree}
    (hremove : tree.remove path = .ok changed) :
    ∃ location entry, tree.locate false path = .ok (.found location entry) ∧
      ∀ other, other ≠ [] → changed.entryAt? other =
        if location.isPrefixOf other then none else tree.entryAt? other := by
  unfold remove at hremove
  cases hlocate : tree.locate false path with
  | error fault =>
    rw [hlocate] at hremove
    cases hremove
  | ok place =>
    rw [hlocate] at hremove
    cases place with
    | vacant location asDirectory => cases hremove
    | found location entry =>
      cases hremove
      refine ⟨location, entry, rfl, fun other hother => ?_⟩
      have htop : other.isEmpty = false := List.isEmpty_eq_false_iff.mpr hother
      simp only [entryAt?, htop, Bool.false_eq_true, if_false]
      have hlookup := Table.lookup_filter_key (fun other => !location.isPrefixOf other) other
        tree.entries
      rw [hlookup]
      cases location.isPrefixOf other <;> rfl

end FileTree

end OpenApiTypings
