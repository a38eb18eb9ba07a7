import OpenApiTypings.Proofs.Files.Tree

/-!
# What file operations do to files

A file system is lawful when its operations do to the files what their names say: reading and
making directories leave every file as it was, and writing replaces one file and nothing else.
Files are told apart by what they are and not by the paths to them, as several paths may lead to
one file.  Where a written file stands is the one that its path leads to afterwards.

A tree of files is lawful, with the locations of its entries for the files.
-/

namespace OpenApiTypings

/-- What can be seen of the files in a state: what each of them holds, if there is such a file,
and which of them a path leads to. -/
structure FileView (σ : Type) where
  {File : Type}
  content? (state : σ) (file : File) : Option Content
  file? (state : σ) (path : String) : Option File

namespace FileView

variable (view : FileView σ) {state middle after : σ} {path text : String}

/-- Every file holds what it held, and there are no others. -/
def Kept (state after : σ) : Prop :=
  ∀ file, view.content? after file = view.content? state file

/-- The path leads to a file that holds the text. -/
def Holds (state : σ) (path text : String) : Prop :=
  ∃ file, view.file? state path = some file ∧ view.content? state file = some (.text text)

/-- The path leads to a file that holds the text, and all other files are as they were. -/
def Replaced (state after : σ) (path text : String) : Prop :=
  ∃ file, view.file? after path = some file ∧ view.content? after file = some (.text text) ∧
    ∀ other, other ≠ file → view.content? after other = view.content? state other

variable {view}

theorem Kept.refl (state : σ) : view.Kept state state := fun _ => rfl

theorem Kept.trans (h : view.Kept state middle) (h' : view.Kept middle after) :
    view.Kept state after :=
  fun file => (h' file).trans (h file)

theorem Replaced.of_kept (h : view.Kept state middle) (h' : view.Replaced middle after path text) :
    view.Replaced state after path text := by
  obtain ⟨file, hfile, htext, hothers⟩ := h'
  exact ⟨file, hfile, htext, fun other hother => (hothers other hother).trans (h other)⟩

theorem Replaced.holds (h : view.Replaced state after path text) : view.Holds after path text := by
  obtain ⟨file, hfile, htext, -⟩ := h
  exact ⟨file, hfile, htext⟩

/-! ### Steps that keep all files -/

/-- After the step every file holds what it held. -/
def Keeps (view : FileView σ) (m : StateM σ α) : Prop :=
  ∀ state, view.Kept state (m state).2

namespace Keeps

theorem pure (a : α) : view.Keeps (Pure.pure a : StateM σ α) := fun state => Kept.refl state

theorem bind {m : StateM σ α} {f : α → StateM σ β} (hm : view.Keeps m)
    (hf : ∀ a, view.Keeps (f a)) : view.Keeps (m >>= f) :=
  fun state => (hm state).trans (hf _ _)

end Keeps

end FileView

/-- The operations do to the files what is asked for. -/
structure FileSystem.Lawful (fs : FileSystem (StateM σ)) (view : FileView σ) : Prop where
  readText_keeps : ∀ path, view.Keeps (fs.readText path)
  /-- A text that is read is that of the file which the path leads to, before and after. -/
  readText_ok : ∀ {path text state}, (fs.readText path state).1 = .ok text →
    view.Holds state path text ∧ view.Holds (fs.readText path state).2 path text
  isDirectory_keeps : ∀ path, view.Keeps (fs.isDirectory path)
  /-- Making a directory changes no file, whether it succeeds or not. -/
  makeDirectory_keeps : ∀ path, view.Keeps (fs.makeDirectory path)
  writeText_ok : ∀ {path text state}, (fs.writeText path text state).1 = .ok () →
    view.Replaced state (fs.writeText path text state).2 path text

/-! ### Making directories -/

namespace FileSystem.Lawful

open FileView (Keeps)

variable {fs : FileSystem (StateM σ)} {view : FileView σ}

theorem ensureDirectory_keeps (laws : fs.Lawful view) (path : String) :
    view.Keeps (fs.ensureDirectory path) := by
  refine Keeps.bind (laws.makeDirectory_keeps path) fun result => ?_
  cases result with
  | ok _ => exact .pure _
  | error fault => exact .bind (laws.isDirectory_keeps path) fun _ => .pure _

theorem ensureDirectories_keeps (laws : fs.Lawful view) (bound : Nat) (path : String) :
    view.Keeps (fs.ensureDirectories bound path) := by
  induction bound generalizing path with
  | zero => exact .pure _
  | succ bound ih =>
    unfold ensureDirectories
    split
    · exact .pure _
    refine .bind (laws.ensureDirectory_keeps path) fun result => ?_
    split
    · split
      · exact .pure _
      · refine .bind (ih _) fun outer => ?_
        cases outer with
        | ok _ => exact laws.ensureDirectory_keeps path
        | error fault => exact .pure _
    · exact .pure _

/-- Making directories keeps all files, whether it succeeds or not. -/
theorem createDirectories_keeps (laws : fs.Lawful view) (path : String) :
    view.Keeps (fs.createDirectories path) :=
  laws.ensureDirectories_keeps _ path

end FileSystem.Lawful

/-! ### Trees of files -/

/-- What stands at the end of a path is in the tree.  Directories are left out of this: a path may
come back to one from below, whether the tree has an entry for it or not. -/
inductive Place.StandsIn (tree : FileTree) : Place → Prop
  | directory (location : Location) : StandsIn tree (.found location .directory)
  | found {location : Location} {entry : Entry} (hentry : tree.entryAt? location = some entry) :
      StandsIn tree (.found location entry)
  | vacant {location : Location} {asDirectory : Bool} (hentry : tree.entryAt? location = none) :
      StandsIn tree (.vacant location asDirectory)

namespace FileTree

variable {tree : FileTree} {location : Location} {path : String} {place : Place}

theorem descend_standsIn {throughLast : Bool}
    {follow : Location → List String → Except FileFault Place}
    (hfollow : ∀ start names place, follow start names = .ok place → place.StandsIn tree)
    {names : List String} {here : Location}
    (hdescend : tree.descend throughLast follow names here = .ok place) :
    place.StandsIn tree := by
  induction names generalizing here with
  | nil =>
    cases hdescend
    exact .directory here
  | cons name rest ih =>
    unfold descend at hdescend
    split at hdescend
    · exact ih hdescend
    split at hdescend
    · exact ih hdescend
    split at hdescend
    · cases hdescend
    dsimp only at hdescend
    -- Whether the way ends here decides between failing and going on, not what is found.
    generalize (if throughLast then rest.isEmpty else rest.all (· = "")) = isLast at hdescend
    cases hentry : tree.entryAt? (here ++ [name]) with
    | none =>
      simp only [hentry] at hdescend
      split at hdescend
      · cases hdescend
        exact .vacant hentry
      · cases hdescend
    | some entry =>
      cases entry with
      | directory =>
        simp only [hentry] at hdescend
        exact ih hdescend
      | file content =>
        simp only [hentry] at hdescend
        split at hdescend
        · cases hdescend
          exact .found hentry
        · cases hdescend
      | link target =>
        simp only [hentry] at hdescend
        split at hdescend
        · cases hdescend
          exact .found hentry
        · exact hfollow _ _ _ hdescend

theorem walk_standsIn {throughLast : Bool} {links : Nat} {here : Location} {names : List String}
    (hwalk : tree.walk throughLast links here names = .ok place) : place.StandsIn tree := by
  induction links generalizing here names place with
  | zero => cases hwalk
  | succ links ih => exact descend_standsIn (fun _ _ _ hfollow => ih hfollow) hwalk

theorem locate_standsIn {throughLast : Bool} (hlocate : tree.locate throughLast path = .ok place) :
    place.StandsIn tree := by
  unfold locate at hlocate
  split at hlocate
  · cases hlocate
  split at hlocate
  · cases hlocate
  split at hlocate
  · cases hlocate
  exact walk_standsIn hlocate

theorem ne_nil_of_takesFile (hplace : place.TakesFile location) (hstands : place.StandsIn tree) :
    location ≠ [] := by
  rintro rfl
  cases hplace with
  | file content =>
    cases hstands with
    | found hentry => cases hentry
  | vacant =>
    cases hstands with
    | vacant hentry => cases hentry

/-- The files of a tree, by their locations. -/
def view : FileView FileTree where
  content? tree location :=
    match tree.entryAt? location with
    | some (.file content) => some content
    | _ => none
  file? tree path :=
    match tree.locate true path with
    | .ok (.found location (.file _)) => some location
    | _ => none

theorem exists_of_readText {text : String} (hread : tree.readText path = .ok text) :
    ∃ location, tree.locate true path = .ok (.found location (.file (.text text))) := by
  unfold readText FileTree.content at hread
  cases hlocate : tree.locate true path with
  | error fault =>
    rw [hlocate] at hread
    cases hread
  | ok place =>
    rw [hlocate] at hread
    rcases place with ⟨location, (_ | data) | _ | _⟩ | _
    · cases hread
      exact ⟨location, rfl⟩
    all_goals cases hread

/-- What making something new changes. -/
theorem exists_of_make {entry : Entry} {changed : FileTree}
    (hmake : tree.make path entry = .ok changed) :
    ∃ location asDirectory, tree.locate false path = .ok (.vacant location asDirectory) ∧
      changed = tree.put location entry := by
  unfold make at hmake
  cases hlocate : tree.locate false path with
  | error fault =>
    rw [hlocate] at hmake
    cases hmake
  | ok place =>
    rw [hlocate] at hmake
    cases place with
    | found => cases hmake
    | vacant location asDirectory =>
      cases hmake
      exact ⟨location, asDirectory, rfl, rfl⟩

theorem view_holds_of_readText {text : String} (hread : tree.readText path = .ok text) :
    view.Holds tree path text := by
  obtain ⟨location, hlocate⟩ := exists_of_readText hread
  cases locate_standsIn hlocate with
  | found hentry =>
    refine ⟨location, ?_, ?_⟩
    · simp only [view, hlocate]
    · simp only [view, hentry]

theorem view_kept_of_make {changed : FileTree} (hmake : tree.make path .directory = .ok changed) :
    view.Kept tree changed := by
  obtain ⟨location, asDirectory, hlocate, rfl⟩ := exists_of_make hmake
  cases locate_standsIn hlocate with
  | vacant hentry =>
    intro other
    by_cases hother : other = location
    · subst hother
      have hloc : other ≠ [] := by
        rintro rfl
        cases hentry
      simp only [view, hentry, entryAt?_put_self tree hloc]
    · simp only [view, entryAt?_put_of_ne tree hother]

theorem view_replaced_of_write {text : String} {changed : FileTree}
    (hwrite : tree.write path (.text text) = .ok changed) :
    view.Replaced tree changed path text := by
  obtain ⟨place, location, hlocate, hplace, rfl⟩ := exists_of_write hwrite
  have hloc := ne_nil_of_takesFile hplace (locate_standsIn hlocate)
  refine ⟨location, ?_, ?_, fun other hother => ?_⟩
  · simp only [view, locate_put (.text text) hplace hlocate]
  · simp only [view, entryAt?_put_self tree hloc]
  · simp only [view, entryAt?_put_of_ne tree hother]

theorem change_ok {operation : FileTree → Except FileFault FileTree} {changed : FileTree}
    (h : operation tree = .ok changed) : change operation tree = (.ok (), changed) := by
  unfold change
  rw [h]

theorem change_error {operation : FileTree → Except FileFault FileTree} {fault : FileFault}
    (h : operation tree = .error fault) : change operation tree = (.error fault, tree) := by
  unfold change
  rw [h]

theorem lawful_system : system.Lawful view where
  readText_keeps _ tree := .refl tree
  readText_ok hread := ⟨view_holds_of_readText hread, view_holds_of_readText hread⟩
  isDirectory_keeps _ tree := .refl tree
  makeDirectory_keeps path tree := by
    change view.Kept tree (change (·.make path .directory) tree).2
    cases hmake : tree.make path .directory with
    | error fault =>
      rw [change_error hmake]
      exact .refl tree
    | ok changed =>
      rw [change_ok hmake]
      exact view_kept_of_make hmake
  writeText_ok {path text tree} hwrite := by
    change (change (·.write path (.text text)) tree).1 = .ok () at hwrite
    change view.Replaced tree (change (·.write path (.text text)) tree).2 path text
    cases hresult : tree.write path (.text text) with
    | error fault =>
      rw [change_error hresult] at hwrite
      cases hwrite
    | ok changed =>
      rw [change_ok hresult]
      exact view_replaced_of_write hresult

end FileTree

end OpenApiTypings
