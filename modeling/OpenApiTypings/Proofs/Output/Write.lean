import OpenApiTypings.Output.Write
import OpenApiTypings.Proofs.Files.Tree
import OpenApiTypings.Proofs.Output.Banner

/-!
# Writing the declarations a second time

Whatever happened in the first run, the file that it leaves declares the same as the
text it was brought up to date with.  So a second run leaves it alone exactly when its
own text declares that same.
-/

namespace OpenApiTypings.Output

variable {path : String} {tree changed : FileTree}

theorem bind_apply (x : StateM σ α) (f : α → StateM σ β) (s : σ) :
    (x >>= f) s = f (x s).1 (x s).2 := rfl

/-! ### Bringing a file up to date -/

/-- A text that was stored is read. -/
theorem readText_of_store {text : String}
    (hstore : store FileTree.system path text tree = (.ok (), changed)) :
    changed.readText path = .ok text := by
  unfold store at hstore
  rw [bind_apply] at hstore
  rcases hparents : createParents FileTree.system path tree with ⟨result, outer⟩
  rw [hparents] at hstore
  cases result with
  | error error => cases hstore
  | ok _ =>
    have hwrite : (FileTree.system.writeText path text outer).1.mapError
        (WriteError.write path) = .ok () ∧
        (FileTree.system.writeText path text outer).2 = changed :=
      Prod.mk.inj hstore
    simp only [FileTree.system, FileTree.change] at hwrite
    cases hresult : outer.write path (.text text) with
    | error fault =>
      simp only [hresult] at hwrite
      cases hwrite.1
    | ok written =>
      simp only [hresult] at hwrite
      rw [← hwrite.2]
      exact FileTree.readText_of_write hresult

/-- A tree after the text of a file was stored in it, with what became of the file. -/
def stored (path text : String) (tree : FileTree) :
    Except WriteError WriteOutcome × FileTree :=
  let (result, changed) := store FileTree.system path text tree
  (result.map fun _ => .written, changed)

theorem readText_of_stored {text : String} {outcome : WriteOutcome}
    (hstored : stored path text tree = (.ok outcome, changed)) :
    outcome = .written ∧ changed.readText path = .ok text := by
  unfold stored at hstored
  rcases hstore : store FileTree.system path text tree with ⟨result, outer⟩
  rw [hstore] at hstored
  cases result with
  | error error => cases hstored
  | ok _ =>
    cases hstored
    exact ⟨rfl, readText_of_store hstore⟩

theorem update_of_readText {existing text : String} (hread : tree.readText path = .ok existing) :
    update FileTree.system path text tree =
      if declareSame existing.toList text.toList then (.ok .unchanged, tree)
      else stored path text tree := by
  have hsystem : FileTree.system.readText path tree = (.ok existing, tree) :=
    congrArg (·, tree) hread
  unfold update
  rw [bind_apply, hsystem]
  by_cases hsame : declareSame existing.toList text.toList
  · rw [if_pos hsame]
    simp only [if_pos hsame]
    rfl
  · rw [if_neg hsame]
    simp only [if_neg hsame]
    rfl

theorem update_of_error (text : String) {fault : FileFault}
    (hread : tree.readText path = .error fault) :
    update FileTree.system path text tree = stored path text tree ∨
      update FileTree.system path text tree = (.error (.read path fault), tree) := by
  have hsystem : FileTree.system.readText path tree = (.error fault, tree) :=
    congrArg (·, tree) hread
  unfold update
  rw [bind_apply, hsystem]
  cases fault with
  | notFound => exact Or.inl rfl
  | _ => exact Or.inr rfl

/-- What stands in a file that was brought up to date declares the same as the text. -/
theorem exists_of_update {text : List Char} (hnormal : normalize text = text)
    {outcome : WriteOutcome}
    (hupdate : update FileTree.system path (String.ofList text) tree = (.ok outcome, changed)) :
    ∃ existing, changed.readText path = .ok existing ∧
      stripBanner (normalize existing.toList) = stripBanner text := by
  have hwritten : stored path (String.ofList text) tree = (.ok outcome, changed) →
      ∃ existing, changed.readText path = .ok existing ∧
        stripBanner (normalize existing.toList) = stripBanner text := by
    intro hstored
    refine ⟨String.ofList text, (readText_of_stored hstored).2, ?_⟩
    rw [String.toList_ofList, hnormal]
  cases hread : tree.readText path with
  | error fault =>
    rcases update_of_error (String.ofList text) hread with hstored | hfault
    · exact hwritten (hstored.symm.trans hupdate)
    · rw [hfault] at hupdate
      cases hupdate
  | ok existing =>
    rw [update_of_readText hread] at hupdate
    by_cases hsame : declareSame existing.toList (String.ofList text).toList
    · rw [if_pos hsame] at hupdate
      cases hupdate
      rw [String.toList_ofList] at hsame
      exact ⟨existing, hread, of_decide_eq_true hsame⟩
    · rw [if_neg hsame] at hupdate
      exact hwritten hupdate

/-- A file is left alone when it declares the same as the text, and in no other case. -/
theorem update_unchanged_iff {existing : String} {text : List Char}
    (hread : tree.readText path = .ok existing) :
    (update FileTree.system path (String.ofList text) tree).1 = .ok .unchanged ↔
      stripBanner (normalize existing.toList) = stripBanner text := by
  rw [update_of_readText hread, String.toList_ofList]
  by_cases hsame : declareSame existing.toList text
  · rw [if_pos hsame]
    exact ⟨fun _ => of_decide_eq_true hsame, fun _ => rfl⟩
  · rw [if_neg hsame]
    constructor
    · intro hstored
      cases (readText_of_stored (Prod.ext hstored rfl)).1
    · intro heq
      exact absurd (decide_eq_true heq) hsame

theorem tree_of_update_unchanged {text : String}
    (hunchanged : (update FileTree.system path text tree).1 = .ok .unchanged) :
    (update FileTree.system path text tree).2 = tree := by
  have hwritten : (stored path text tree).1 ≠ .ok .unchanged := by
    intro hstored
    cases (readText_of_stored (Prod.ext hstored rfl)).1
  cases hread : tree.readText path with
  | error fault =>
    rcases update_of_error text hread with hstored | hfault
    · rw [hstored] at hunchanged
      exact absurd hunchanged hwritten
    · rw [hfault] at hunchanged
      cases hunchanged
  | ok existing =>
    rw [update_of_readText hread] at hunchanged ⊢
    by_cases hsame : declareSame existing.toList text.toList
    · rw [if_pos hsame]
    · rw [if_neg hsame] at hunchanged
      exact absurd hunchanged hwritten

/-! ### Sources to run on -/

theorem eq_ok_of_toOption {result : Except WriteError WriteOutcome} {outcome : WriteOutcome}
    (h : result.toOption = some outcome) : result = .ok outcome := by
  cases result with
  | error error => cases h
  | ok other => exact congrArg Except.ok (Option.some.inj h)

/-- The text is a JSON source of declarations that pass a check. -/
def passes (check : Document → Declarations → Bool) (text : String) : Bool :=
  match Document.parse .json text with
  | .error _ => false
  | .ok doc =>
      match build doc with
      | .error _ => false
      | .ok decls => check doc decls

theorem exists_of_passes {check : Document → Declarations → Bool} {text : String}
    (h : passes check text = true) : ∃ doc decls, Document.parse .json text = .ok doc ∧
      build doc = .ok decls ∧ check doc decls = true := by
  unfold passes at h
  split at h
  · cases h
  · rename_i doc hparse
    split at h
    · cases h
    · rename_i decls hbuild
      exact ⟨doc, decls, hparse, hbuild, h⟩

def epochBanner : Banner := { generatedAt := ⟨0, 0⟩ }

/-- A tree that holds a source and nothing else. -/
def sourceTree (text : String) : FileTree := ⟨[(["api.json"], .file (.text text))]⟩

def componentSource : String :=
  "\x7b\"openapi\":\"3.1.0\",\"components\":\x7b\"schemas\":\x7b\"A\":\x7b\x7d\x7d\x7d\x7d"

def bareSource : String := "\x7b\"openapi\":\"3.1.0\"\x7d"

/-! ### Runs -/

theorem generateFromSource_eq_ok_iff {format : SourceFormat} {text : String} {banner : Banner}
    {file : String} :
    (generateFromSource format text banner).1 = .ok file ↔
      ∃ doc decls, Document.parse format text = .ok doc ∧ build doc = .ok decls ∧
        file = decls.renderFile (banner.withVersionOf doc.openapi) := by
  unfold generateFromSource
  cases Document.parse format text with
  | error error => simp
  | ok doc =>
    have hlogged : (generateLogged banner doc).1 =
        (build doc).map fun decls => decls.renderFile (banner.withVersionOf doc.openapi) := rfl
    simp only [hlogged]
    cases hbuild : build doc with
    | error error => simp [hbuild, Except.map]
    | ok decls => simp [hbuild, Except.map, eq_comm]

section Runs

variable {format : SourceFormat} {source : String} {banner : Banner}

/-- A run brings the file up to date with the text in the form in which it is written. -/
theorem write_of_generated (path : String) {text file : String}
    (hread : tree.readText source = .ok text)
    (hgenerated : (generateFromSource format text banner).1 = .ok file) :
    (write FileTree.system format source path banner tree).1.result =
        (update FileTree.system path (String.ofList (normalize file.toList)) tree).1 ∧
      (write FileTree.system format source path banner tree).2 =
        (update FileTree.system path (String.ofList (normalize file.toList)) tree).2 := by
  have hsystem : FileTree.system.readText source tree = (.ok text, tree) :=
    congrArg (·, tree) hread
  unfold write
  rw [bind_apply, hsystem]
  simp only [hgenerated]
  rw [bind_apply]
  cases (update FileTree.system path (String.ofList (normalize file.toList)) tree).1 with
  | error error => exact ⟨rfl, rfl⟩
  | ok outcome => exact ⟨rfl, rfl⟩

theorem exists_of_write {outcome : WriteOutcome}
    (hok : (write FileTree.system format source path banner tree).1.result = .ok outcome) :
    ∃ text file, tree.readText source = .ok text ∧
      (generateFromSource format text banner).1 = .ok file := by
  unfold write at hok
  rw [bind_apply] at hok
  cases hread : tree.readText source with
  | error fault =>
    have hsystem : FileTree.system.readText source tree = (.error fault, tree) :=
      congrArg (·, tree) hread
    rw [hsystem] at hok
    cases hok
  | ok text =>
    have hsystem : FileTree.system.readText source tree = (.ok text, tree) :=
      congrArg (·, tree) hread
    rw [hsystem] at hok
    cases hgenerated : (generateFromSource format text banner).1 with
    | error error =>
      simp only [hgenerated] at hok
      cases hok
    | ok file => exact ⟨text, file, rfl, hgenerated⟩

variable {later : Moment} {after : FileTree} {report₁ report₂ : WriteReport}
  {outcome : WriteOutcome}

/-- Two runs over a source with known declarations. -/
theorem write_again_of_build {text : String} {doc : Document} {decls : Declarations}
    (hread : tree.readText source = .ok text) (hparse : Document.parse format text = .ok doc)
    (hbuild : build doc = .ok decls)
    (hfirst : write FileTree.system format source path banner tree = (report₁, changed))
    (hok : report₁.result = .ok outcome)
    (hsource : changed.readText source = tree.readText source)
    (hsecond : write FileTree.system format source path { banner with generatedAt := later }
      changed = (report₂, after)) :
    (report₂.result = .ok .unchanged ↔
        banner.generatedAt.text = later.text ∨
          (decls.render ≠ "" ∧ ¬ (banner.withVersionOf doc.openapi).EndsEarly)) ∧
      (report₂.result = .ok .unchanged → after = changed) := by
  obtain ⟨hresult₁, htree₁⟩ := write_of_generated path hread
    (generateFromSource_eq_ok_iff.mpr ⟨doc, decls, hparse, hbuild, rfl⟩)
  obtain ⟨hresult₂, htree₂⟩ := write_of_generated path (hsource.trans hread)
    (generateFromSource_eq_ok_iff.mpr ⟨doc, decls, hparse, hbuild, rfl⟩)
  rw [hfirst] at hresult₁ htree₁
  rw [hsecond] at hresult₂ htree₂
  simp only at hresult₁ htree₁ hresult₂ htree₂
  obtain ⟨existing, hexisting, hsame⟩ := exists_of_update (normalize_normalize _)
    (Prod.ext (hresult₁.symm.trans hok) htree₁.symm)
  rw [hresult₂, htree₂]
  refine ⟨?_, tree_of_update_unchanged⟩
  rw [update_unchanged_iff hexisting, hsame]
  exact decls.declareSame_renderFile_iff (banner.withVersionOf doc.openapi) later

/-- After a run that succeeded, a second run with a later time leaves the file alone
exactly when the two times read the same, or when the document declares something and
neither version brings the end of a comment with a blank line behind it. -/
theorem write_again_unchanged_iff
    (hfirst : write FileTree.system format source path banner tree = (report₁, changed))
    (hok : report₁.result = .ok outcome)
    (hsource : changed.readText source = tree.readText source)
    (hsecond : write FileTree.system format source path { banner with generatedAt := later }
      changed = (report₂, after)) :
    ∃ text doc decls, tree.readText source = .ok text ∧
      Document.parse format text = .ok doc ∧ build doc = .ok decls ∧
      (report₂.result = .ok .unchanged ↔
        banner.generatedAt.text = later.text ∨
          (decls.render ≠ "" ∧ ¬ (banner.withVersionOf doc.openapi).EndsEarly)) ∧
      (report₂.result = .ok .unchanged → after = changed) := by
  have hresult : (write FileTree.system format source path banner tree).1.result =
      .ok outcome := (congrArg (·.1.result) hfirst).trans hok
  obtain ⟨text, file, hread, hgenerated⟩ := exists_of_write hresult
  obtain ⟨doc, decls, hparse, hbuild, _⟩ := generateFromSource_eq_ok_iff.mp hgenerated
  exact ⟨text, doc, decls, hread, hparse, hbuild,
    write_again_of_build hread hparse hbuild hfirst hok hsource hsecond⟩

end Runs

theorem write_again_unchanged_component :
    ∃ report₁ changed report₂,
      write FileTree.system .json "api.json" "api.ts" epochBanner
        (sourceTree componentSource) = (report₁, changed) ∧
      report₁.result = .ok .written ∧
      write FileTree.system .json "api.json" "api.ts"
        { epochBanner with generatedAt := ⟨1, 0⟩ } changed = (report₂, changed) ∧
      report₂.result = .ok .unchanged := by
  have hok : (write FileTree.system .json "api.json" "api.ts" epochBanner
      (sourceTree componentSource)).1.result = .ok .written :=
    eq_ok_of_toOption (by decide +kernel)
  have hsource : (write FileTree.system .json "api.json" "api.ts" epochBanner
      (sourceTree componentSource)).2.readText "api.json" =
        (sourceTree componentSource).readText "api.json" := by decide +kernel
  have hcontent : (sourceTree componentSource).readText "api.json" = .ok componentSource := by
    decide +kernel
  have hshown : passes (fun doc decls => doc.openapi = some "3.1.0" ∧ decls.render ≠ "")
      componentSource = true := by decide +kernel
  rcases hfirst : write FileTree.system .json "api.json" "api.ts" epochBanner
    (sourceTree componentSource) with ⟨report₁, changed⟩
  rcases hsecond : write FileTree.system .json "api.json" "api.ts"
    { epochBanner with generatedAt := ⟨1, 0⟩ } changed with ⟨report₂, after⟩
  rw [hfirst] at hok hsource
  obtain ⟨text, doc, decls, hread, hparse, hbuild, hiff, hafter⟩ :=
    write_again_unchanged_iff hfirst hok hsource hsecond
  obtain ⟨doc', decls', hparse', hbuild', hcheck⟩ := exists_of_passes hshown
  rw [Except.ok.inj (hread.symm.trans hcontent)] at hparse
  obtain rfl := Except.ok.inj (hparse.symm.trans hparse')
  obtain rfl := Except.ok.inj (hbuild.symm.trans hbuild')
  obtain ⟨hversion, hrender⟩ := of_decide_eq_true hcheck
  have hends : ¬ (epochBanner.withVersionOf doc.openapi).EndsEarly := by
    have hname : '\n' ∉ generatorName.toList := by decide
    apply Banner.not_endsEarly
    · exact hname
    · rw [hversion]
      rintro version ⟨⟩
      decide
  have hunchanged := hiff.mpr (Or.inr ⟨hrender, hends⟩)
  have hsame := hafter hunchanged
  subst hsame
  exact ⟨report₁, after, report₂, rfl, hok, hsecond, hunchanged⟩

/-- The file of a document that declares nothing is written again for every new time. -/
theorem not_write_again_unchanged :
    ¬ ∀ (format : SourceFormat) (source path : String) (banner : Banner) (later : Moment)
        (tree changed after : FileTree) (report₁ report₂ : WriteReport)
        (outcome : WriteOutcome),
      write FileTree.system format source path banner tree = (report₁, changed) →
        report₁.result = .ok outcome →
        changed.readText source = tree.readText source →
        write FileTree.system format source path { banner with generatedAt := later } changed =
          (report₂, after) →
        report₂.result = .ok .unchanged ∧ after = changed := by
  intro h
  have hok : (write FileTree.system .json "api.json" "api.ts" epochBanner
      (sourceTree bareSource)).1.result = .ok .written :=
    eq_ok_of_toOption (by decide +kernel)
  have hsource : (write FileTree.system .json "api.json" "api.ts" epochBanner
      (sourceTree bareSource)).2.readText "api.json" =
        (sourceTree bareSource).readText "api.json" := by decide +kernel
  have hread : (sourceTree bareSource).readText "api.json" = .ok bareSource := by
    decide +kernel
  have hbare : passes (fun _ decls => decls.render = "") bareSource = true := by
    decide +kernel
  have htime : Moment.text ⟨0, 0⟩ ≠ Moment.text ⟨1, 0⟩ := by decide +kernel
  rcases hfirst : write FileTree.system .json "api.json" "api.ts" epochBanner
    (sourceTree bareSource) with ⟨report₁, changed⟩
  rcases hsecond : write FileTree.system .json "api.json" "api.ts"
    { epochBanner with generatedAt := ⟨1, 0⟩ } changed with ⟨report₂, after⟩
  rw [hfirst] at hok hsource
  obtain ⟨hunchanged, _⟩ := h _ _ _ _ _ _ _ _ _ _ _ hfirst hok hsource hsecond
  obtain ⟨doc, decls, hparse, hbuild, hcheck⟩ := exists_of_passes hbare
  obtain ⟨hiff, _⟩ := write_again_of_build hread hparse hbuild hfirst hok hsource hsecond
  rcases hiff.mp hunchanged with hsame | ⟨hshown, _⟩
  · exact htime hsame
  · exact hshown (of_decide_eq_true hcheck)

end OpenApiTypings.Output
