import OpenApiTypings.Proofs.Files.Lawful
import OpenApiTypings.Proofs.Output.Write

/-!
# What a run does to the files

On every lawful file system a run that succeeds leaves a file that declares what the source
declares, and it has changed no other file.  A run that leaves the file alone, and one that
fails before it writes, has changed none at all.  Nothing is said of a run that fails while it
writes.
-/

namespace OpenApiTypings.Output

/-- What a step leaves behind that brings a file up to date with a text, for each of its results. -/
def Leaves (view : FileView σ) (path text : String) (state after : σ) :
    Except WriteError WriteOutcome → Prop
  | .ok .written => view.Replaced state after path text
  | .ok .unchanged => view.Kept state after ∧
      ∃ existing, view.Holds after path existing ∧ declareSame existing.toList text.toList
  | .error (.write _ _) => True
  | .error _ => view.Kept state after

variable {fs : FileSystem (StateM σ)} {view : FileView σ} {path text : String}
  {state middle after : σ} {result : Except WriteError WriteOutcome}

theorem leaves_error_of_kept (h : view.Kept state after) (error : WriteError) :
    Leaves view path text state after (.error error) := by
  cases error with
  | write path fault => trivial
  | read path fault => exact h
  | createDirectory path fault => exact h
  | compile error => exact h

theorem Leaves.of_kept (h : view.Kept state middle)
    (h' : Leaves view path text middle after result) :
    Leaves view path text state after result := by
  cases result with
  | ok outcome =>
    cases outcome with
    | written => exact .of_kept h h'
    | unchanged => exact ⟨h.trans h'.1, h'.2⟩
  | error error =>
    cases error with
    | write path fault => trivial
    | read path fault => exact h.trans h'
    | createDirectory path fault => exact h.trans h'
    | compile error => exact h.trans h'

/-! ### Bringing a file up to date -/

theorem createParents_keeps (laws : fs.Lawful view) (path : String) :
    view.Keeps (createParents fs path) := by
  unfold createParents
  split
  · exact .pure _
  split
  · exact .pure _
  · exact .bind (laws.createDirectories_keeps _) fun _ => .pure _

theorem leaves_store (laws : fs.Lawful view) (path text : String) (state : σ) :
    Leaves view path text state (store fs path text state).2
      ((store fs path text state).1.map fun _ => .written) := by
  have hkept := createParents_keeps laws path state
  unfold store
  rw [bind_apply]
  cases (createParents fs path state).1 with
  | error error => exact leaves_error_of_kept hkept error
  | ok _ =>
    refine Leaves.of_kept hkept ?_
    dsimp only
    rw [bind_apply]
    cases hwrite : (fs.writeText path text (createParents fs path state).2).1 with
    | error fault => trivial
    | ok _ => exact laws.writeText_ok hwrite

theorem leaves_update (laws : fs.Lawful view) (path text : String) (state : σ) :
    Leaves view path text state (update fs path text state).2 (update fs path text state).1 := by
  have hkept := laws.readText_keeps path state
  unfold update
  rw [bind_apply]
  cases hread : (fs.readText path state).1 with
  | ok existing =>
    obtain ⟨-, hexisting⟩ := laws.readText_ok hread
    dsimp only
    split
    · rename_i hsame
      exact ⟨hkept, existing, hexisting, hsame⟩
    · exact .of_kept hkept (leaves_store laws path text _)
  | error fault =>
    -- A file that is not there is made; any other failure to read it ends the step.
    cases fault with
    | notFound => exact .of_kept hkept (leaves_store laws path text _)
    | _ => exact leaves_error_of_kept hkept _

/-! ### Runs -/

/-- A run fails while all files are kept, or it brings the file up to date with the text that is
generated from the source. -/
theorem leaves_write (laws : fs.Lawful view) (format : SourceFormat) (source path : String)
    (banner : Banner) (state : σ) :
    (∃ error, (write fs format source path banner state).1.result = .error error ∧
      view.Kept state (write fs format source path banner state).2) ∨
    ∃ text file, view.Holds state source text ∧
      (generateFromSource format text banner).1 = .ok file ∧
      Leaves view path (String.ofList (normalize file.toList)) state
        (write fs format source path banner state).2
        (write fs format source path banner state).1.result := by
  have hkept := laws.readText_keeps source state
  unfold write
  rw [bind_apply]
  cases hread : (fs.readText source state).1 with
  | error fault => exact .inl ⟨.read source fault, rfl, hkept⟩
  | ok text =>
    dsimp only
    cases hgenerated : (generateFromSource format text banner).1 with
    | error error => exact .inl ⟨.compile error, rfl, hkept⟩
    | ok file =>
      refine .inr ⟨text, file, (laws.readText_ok hread).1, hgenerated, ?_⟩
      have hleaves := (leaves_update laws path (String.ofList (normalize file.toList))
        (fs.readText source state).2).of_kept hkept
      dsimp only
      rw [bind_apply]
      cases hresult : (update fs path (String.ofList (normalize file.toList))
          (fs.readText source state).2).1 with
      | ok outcome =>
        rw [hresult] at hleaves
        exact hleaves
      | error error =>
        rw [hresult] at hleaves
        exact hleaves

/-- What stands in a file that was brought up to date declares the same as the text. -/
theorem Leaves.exists_same {text : List Char} (hnormal : normalize text = text)
    {outcome : WriteOutcome}
    (h : Leaves view path (String.ofList text) state after (.ok outcome)) :
    ∃ existing, view.Holds after path existing ∧
      stripBanner (normalize existing.toList) = stripBanner text := by
  cases outcome with
  | written =>
    refine ⟨String.ofList text, FileView.Replaced.holds h, ?_⟩
    rw [String.toList_ofList, hnormal]
  | unchanged =>
    obtain ⟨-, existing, hexisting, hsame⟩ := h
    rw [String.toList_ofList] at hsame
    exact ⟨existing, hexisting, of_decide_eq_true hsame⟩

/-- A run that succeeds leaves a file that declares what is generated from the source.  If it has
written, that file holds the generated text and all others are as they were; if it has not, or if
it fails and not in writing, all files are as they were. -/
theorem write_effects (laws : fs.Lawful view) {format : SourceFormat} {source : String}
    {banner : Banner} {report : WriteReport}
    (hrun : write fs format source path banner state = (report, after)) :
    (∀ outcome, report.result = .ok outcome → ∃ text file existing,
      view.Holds state source text ∧ (generateFromSource format text banner).1 = .ok file ∧
      view.Holds after path existing ∧
      stripBanner (normalize existing.toList) = stripBanner (normalize file.toList)) ∧
    (report.result = .ok .written → ∃ text file,
      view.Holds state source text ∧ (generateFromSource format text banner).1 = .ok file ∧
      view.Replaced state after path (String.ofList (normalize file.toList))) ∧
    (report.result = .ok .unchanged → view.Kept state after) ∧
    ∀ error, report.result = .error error → (∀ other fault, error ≠ .write other fault) →
      view.Kept state after := by
  have hleaves := leaves_write laws format source path banner state
  rw [hrun] at hleaves
  dsimp only at hleaves
  rcases hleaves with ⟨error, herror, hkept⟩ | ⟨text, file, hsource, hgenerated, hleaves⟩
  · rw [herror]
    exact ⟨nofun, nofun, nofun, fun _ _ _ => hkept⟩
  · refine ⟨?_, ?_, ?_, ?_⟩
    · intro outcome houtcome
      rw [houtcome] at hleaves
      obtain ⟨existing, hexisting, hsame⟩ := hleaves.exists_same (normalize_normalize _)
      exact ⟨text, file, existing, hsource, hgenerated, hexisting, hsame⟩
    · intro hwritten
      rw [hwritten] at hleaves
      exact ⟨text, file, hsource, hgenerated, hleaves⟩
    · intro hunchanged
      rw [hunchanged] at hleaves
      exact hleaves.1
    · intro error herror hnotWrite
      rw [herror] at hleaves
      cases error with
      | write other fault => exact absurd rfl (hnotWrite other fault)
      | read other fault => exact hleaves
      | createDirectory other fault => exact hleaves
      | compile cause => exact hleaves

/-- The file is written to a directory that is not there yet. -/
theorem write_effects_component :
    ∃ report after text file,
      write FileTree.system .json "api.json" "out/api.ts" epochBanner
        (sourceTree componentSource) = (report, after) ∧ report.result = .ok .written ∧
      FileTree.view.Holds (sourceTree componentSource) "api.json" text ∧
      (generateFromSource .json text epochBanner).1 = .ok file ∧
      FileTree.view.Replaced (sourceTree componentSource) after "out/api.ts"
        (String.ofList (normalize file.toList)) := by
  have hwritten : (write FileTree.system .json "api.json" "out/api.ts" epochBanner
      (sourceTree componentSource)).1.result = .ok .written :=
    eq_ok_of_toOption (by decide +kernel)
  rcases hrun : write FileTree.system .json "api.json" "out/api.ts" epochBanner
    (sourceTree componentSource) with ⟨report, after⟩
  rw [hrun] at hwritten
  obtain ⟨text, file, hsource, hgenerated, hreplaced⟩ :=
    (write_effects FileTree.lawful_system hrun).2.1 hwritten
  exact ⟨report, after, text, file, rfl, hwritten, hsource, hgenerated, hreplaced⟩

end OpenApiTypings.Output
