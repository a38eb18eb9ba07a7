import OpenApiTypings.Output.Write
import OpenApiTypings.Proofs.Output.Banner

/-!
# The banner as a comment

A generated file begins with a comment, and a comment ends where it is closed first.  The
banner closes it on its last line.  Nothing above that line can close it but a version, which
is written as it is given: by the banner, or by the document.
-/

namespace OpenApiTypings

open OpenApiTypings.Output OpenApiTypings.Text

/-! ### Comments -/

/-- What a comment begins with. -/
def commentStart : List Char := "/*".toList

/-- What closes a comment. -/
def commentEnd : List Char := "*/".toList

/-- The text behind the comment that a text begins with. -/
def behindComment? (text : List Char) : Option (List Char) :=
  (dropHead? commentStart text).bind (dropThrough? commentEnd)

/-- The comment of a text ends at the mark in front of a rest that is behind it for sure, just
when the mark is not found above. -/
theorem dropThrough?_line_eq_some_iff {mark : List Char} (hslash : '/' ∈ mark)
    (hspace : ' ' ∉ mark) (above : List Char) (moment : Moment) (rest : List Char) :
    dropThrough? mark (above ++ (moment.line.toList ++ ' ' :: (mark ++ rest))) = some rest ↔
      ¬ mark <:+: above := by
  rw [dropThrough?_line hslash hspace, dropThrough?_append, ← dropThrough?_eq_none_iff]
  cases dropThrough? mark above with
  | none => simp
  | some early =>
    -- what is left behind an earlier mark is longer than the rest
    have hlonger : early ++ (moment.line.toList ++ ' ' :: (mark ++ rest)) ≠ rest := by
      intro heq
      have hlength := congrArg List.length heq
      simp only [List.length_append, List.length_cons] at hlength
      omega
    simp [hlonger]

/-! ### Versions -/

/-- A version is given that holds the mark, counting the end of its line. -/
def Brings (mark : List Char) (version? : Option String) : Prop :=
  ∃ version, version? = some version ∧ mark <:+: (version ++ "\n").toList

section Marks

variable {mark : List Char}

theorem not_brings_none : ¬ Brings mark none := nofun

theorem brings_some_iff {version : String} :
    Brings mark (some version) ↔ mark <:+: (version ++ "\n").toList :=
  ⟨fun ⟨_, heq, hfound⟩ => Option.some.inj heq ▸ hfound, fun hfound => ⟨version, rfl, hfound⟩⟩

variable (hslash : '/' ∈ mark) (hspace : ' ' ∉ mark) (hat : '@' ∉ mark)
include hslash

theorem not_infix_of_notMem {text : List Char} (htext : '/' ∉ text) : ¬ mark <:+: text :=
  fun hfound => htext (hfound.subset hslash)

theorem not_brings_empty {version : String} (hempty : version.isEmpty = true) :
    ¬ Brings mark (some version) := by
  rw [brings_some_iff, String.isEmpty_iff.mp hempty]
  exact not_infix_of_notMem hslash (by decide)

namespace Banner

include hat in
theorem infix_generator_iff (banner : Banner) :
    mark <:+: (banner.generator ++ "\n").toList ↔ Brings mark banner.generatorVersion := by
  have hname : ¬ mark <:+: (generatorName ++ "\n").toList :=
    not_infix_of_notMem hslash (by decide)
  unfold generator
  split
  · rename_i hnone
    rw [hnone]
    exact iff_of_false hname not_brings_none
  · rename_i version hsome
    rw [hsome]
    split
    · rename_i hempty
      exact iff_of_false hname (not_brings_empty hslash hempty)
    · have hlist : (generatorName ++ "@" ++ version ++ "\n").toList =
          generatorName.toList ++ '@' :: (version ++ "\n").toList := by
        simp [String.toList_append]
      have hfront : ¬ mark <:+: generatorName.toList := not_infix_of_notMem hslash (by decide)
      rw [hlist, infix_append_stop hat (List.ne_nil_of_mem hslash), brings_some_iff]
      exact or_iff_right hfront

include hspace in
theorem infix_append_versionLine_iff (banner : Banner) (front : List Char) :
    mark <:+: front ++ banner.versionLine.toList ↔
      mark <:+: front ∨ Brings mark banner.openapiVersion := by
  have hnothing : mark <:+: front ++ "".toList ↔ mark <:+: front := by
    rw [String.toList_empty, List.append_nil]
  unfold versionLine
  split
  · rename_i hnone
    rw [hnone, hnothing]
    exact (or_iff_left not_brings_none).symm
  · rename_i version hsome
    rw [hsome]
    split
    · rename_i hempty
      rw [hnothing]
      exact (or_iff_left (not_brings_empty hslash hempty)).symm
    · have hlabel : " * OpenAPI version: ".toList =
          ' ' :: ("* OpenAPI version:".toList ++ [' ']) := by decide
      have hlist : (" * OpenAPI version: " ++ version ++ "\n").toList =
          ' ' :: ("* OpenAPI version:".toList ++ ' ' :: (version ++ "\n").toList) := by
        rw [String.toList_append, String.toList_append, String.toList_append, hlabel]
        simp
      have hname : ¬ mark <:+: "* OpenAPI version:".toList :=
        not_infix_of_notMem hslash (by decide)
      have hmark := List.ne_nil_of_mem hslash
      rw [hlist, infix_append_stop hspace hmark, infix_append_stop hspace hmark,
        brings_some_iff, or_iff_right hname]

omit hslash in
/-- The lines above the time, with the blanks that part a version from what is around it. -/
theorem exists_opening_eq_cons (banner : Banner) :
    ∃ label, '/' ∉ label ∧ banner.opening.toList = commentStart ++ '\n' :: ' ' ::
      (label ++ ' ' :: ((banner.generator ++ "\n").toList ++ banner.versionLine.toList)) := by
  have hlabel : ("/*\n" ++ " * @Warning: THIS FILE IS AUTO-GENERATED - DO NOT EDIT\n" ++
      " *\n" ++ " * Generator: ").toList = commentStart ++ '\n' :: ' ' ::
        ("* @Warning: THIS FILE IS AUTO-GENERATED - DO NOT EDIT\n *\n * Generator:".toList ++
          [' ']) := by decide +kernel
  refine ⟨"* @Warning: THIS FILE IS AUTO-GENERATED - DO NOT EDIT\n *\n * Generator:".toList,
    by decide +kernel, ?_⟩
  unfold opening
  rw [String.toList_append, String.toList_append, String.toList_append, hlabel,
    String.toList_append]
  simp only [List.append_assoc, List.cons_append, List.nil_append]

include hspace hat in
/-- Above the time a mark is found in a version or nowhere. -/
theorem infix_inside_iff (banner : Banner) {label : List Char} (hlabel : '/' ∉ label)
    {start : List Char} (hstart : ¬ mark <:+: start) :
    mark <:+: start ++ ' ' ::
        (label ++ ' ' :: ((banner.generator ++ "\n").toList ++ banner.versionLine.toList)) ↔
      Brings mark banner.generatorVersion ∨ Brings mark banner.openapiVersion := by
  have hmark := List.ne_nil_of_mem hslash
  rw [infix_append_stop hspace hmark, infix_append_stop hspace hmark, or_iff_right hstart,
    or_iff_right (not_infix_of_notMem hslash hlabel),
    infix_append_versionLine_iff hslash hspace, infix_generator_iff hslash hat]

end Banner

end Marks

/-! ### The beginning of a file -/

namespace Banner

/-- The comment is closed on the last line of the banner, unless a version closes it. -/
theorem behindComment?_render_iff (banner : Banner) (body : List Char) :
    behindComment? (banner.render.toList ++ body) = some ("\n\n".toList ++ body) ↔
      ¬ Brings commentEnd banner.generatorVersion ∧ ¬ Brings commentEnd banner.openapiVersion := by
  obtain ⟨label, hlabel, hopening⟩ := banner.exists_opening_eq_cons
  have hend : " */\n\n".toList = ' ' :: (commentEnd ++ "\n\n".toList) := by decide
  have hwhole : banner.render.toList ++ body = commentStart ++
      (['\n'] ++ ' ' :: (label ++ ' ' ::
          ((banner.generator ++ "\n").toList ++ banner.versionLine.toList)) ++
        (banner.generatedAt.line.toList ++ ' ' :: (commentEnd ++ ("\n\n".toList ++ body)))) := by
    rw [banner.render_eq, String.toList_append, String.toList_append, hopening, hend]
    simp
  rw [behindComment?, dropHead?_eq_some_iff.mpr hwhole, Option.bind_some,
    dropThrough?_line_eq_some_iff (by decide) (by decide),
    infix_inside_iff (by decide) (by decide) (by decide) banner hlabel (by decide), not_or]

/-- The declarations are what is found behind the banner, unless a version brings the end of a
banner. -/
theorem stripBanner_render_iff (banner : Banner) (body : List Char) :
    stripBanner (banner.render.toList ++ body) = body ↔
      ¬ Brings bannerEnd banner.generatorVersion ∧ ¬ Brings bannerEnd banner.openapiVersion := by
  obtain ⟨label, hlabel, hopening⟩ := banner.exists_opening_eq_cons
  have hend : " */\n\n".toList = ' ' :: bannerEnd := by decide
  have hstart : commentStart ++ ['\n'] = bannerStart := by decide
  have hwhole : banner.render.toList ++ body =
      (bannerStart ++ ' ' :: (label ++ ' ' ::
          ((banner.generator ++ "\n").toList ++ banner.versionLine.toList))) ++
        (banner.generatedAt.line.toList ++ ' ' :: (bannerEnd ++ body)) := by
    rw [banner.render_eq, String.toList_append, String.toList_append, hopening, hend, ← hstart]
    simp
  have hlonger : banner.render.toList ++ body ≠ body := by
    intro heq
    have hlength := congrArg List.length heq
    rw [hwhole] at hlength
    simp only [List.length_append, List.length_cons] at hlength
    omega
  have hopens := dropHead?_eq_some_iff.mpr (hwhole.trans (List.append_assoc bannerStart _ _))
  have hfound : stripBanner (banner.render.toList ++ body) = body ↔
      dropThrough? bannerEnd (banner.render.toList ++ body) = some body := by
    rw [stripBanner, hopens]
    cases dropThrough? bannerEnd (banner.render.toList ++ body) with
    | none => simpa using hlonger
    | some rest => simp
  rw [hfound, hwhole, dropThrough?_line_eq_some_iff (by decide) (by decide),
    infix_inside_iff (by decide) (by decide) (by decide) banner hlabel (by decide), not_or]

end Banner

/-! ### Generated files -/

theorem generate_eq_ok_iff {banner : Banner} {doc : Document} {file : String} :
    generate banner doc = .ok file ↔
      ∃ decls, build doc = .ok decls ∧
        file = decls.renderFile (banner.withVersionOf doc.openapi) := by
  have hlogged : generate banner doc =
      (build doc).map fun decls => decls.renderFile (banner.withVersionOf doc.openapi) := rfl
  rw [hlogged]
  cases hbuild : build doc with
  | error error => simp [Except.map]
  | ok decls => simp [Except.map, eq_comm]

/-- The banner gives the version, of the program or of the format of the document. -/
def Banner.Gives (banner : Banner) (version : String) : Prop :=
  banner.generatorVersion = some version ∨ banner.openapiVersion = some version

theorem Banner.not_brings_iff {mark : List Char} {banner : Banner} :
    ¬ Brings mark banner.generatorVersion ∧ ¬ Brings mark banner.openapiVersion ↔
      ∀ version, banner.Gives version → ¬ mark <:+: (version ++ "\n").toList := by
  constructor
  · rintro ⟨hgenerator, hopenapi⟩ version (hsome | hsome) hfound
    · exact hgenerator ⟨version, hsome, hfound⟩
    · exact hopenapi ⟨version, hsome, hfound⟩
  · intro h
    exact ⟨fun ⟨version, hsome, hfound⟩ => h version (.inl hsome) hfound,
      fun ⟨version, hsome, hfound⟩ => h version (.inr hsome) hfound⟩

theorem commentEnd_infix_line_iff {version : String} :
    commentEnd <:+: (version ++ "\n").toList ↔ commentEnd <:+: version.toList := by
  have hnothing : ¬ commentEnd <:+: [] := by decide
  have hline : (version ++ "\n").toList = version.toList ++ '\n' :: [] := by simp
  rw [hline, infix_append_stop (by decide) (by decide), or_iff_left hnothing]

/-- A generated file is a banner with the declarations behind it.  The first end of a comment is
the one on the last line of the banner just when no version that the banner gives, its own or
the document's, holds the end of a comment; and the declarations are told from the banner just
when no version, with the end of its line, holds the end of a banner. -/
theorem generate_comment_iff {banner : Banner} {doc : Document} {file : String}
    (h : generate banner doc = .ok file) :
    ∃ decls, build doc = .ok decls ∧
      file = (banner.withVersionOf doc.openapi).render ++ decls.render ∧
      (behindComment? file.toList = some ("\n\n" ++ decls.render).toList ↔
        ∀ version, (banner.withVersionOf doc.openapi).Gives version →
          ¬ commentEnd <:+: version.toList) ∧
      (stripBanner file.toList = decls.render.toList ↔
        ∀ version, (banner.withVersionOf doc.openapi).Gives version →
          ¬ bannerEnd <:+: (version ++ "\n").toList) := by
  obtain ⟨decls, hbuild, rfl⟩ := generate_eq_ok_iff.mp h
  refine ⟨decls, hbuild, rfl, ?_, ?_⟩
  · rw [Declarations.renderFile, String.toList_append, String.toList_append,
      Banner.behindComment?_render_iff, Banner.not_brings_iff]
    simp only [commentEnd_infix_line_iff]
  · rw [Declarations.renderFile, String.toList_append, Banner.stripBanner_render_iff,
      Banner.not_brings_iff]

/-- A document that declares a schema, for a version of the format. -/
def versionedDocument (version : String) : Document where
  openapi := some version
  components := some { schemas := [("Name", .inline (.object [("type", .string "string")]))] }

theorem generate_comment_versioned :
    ∃ file, generate { generatedAt := ⟨0, 0⟩ } (versionedDocument "3.1.0") = .ok file ∧
      ∃ decls, build (versionedDocument "3.1.0") = .ok decls ∧
        decls.schemas = [("Name", "string")] ∧
        behindComment? file.toList = some ("\n\n" ++ decls.render).toList ∧
        stripBanner file.toList = decls.render.toList := by
  have hversion : ∀ version, (Banner.withVersionOf { generatedAt := ⟨0, 0⟩ }
      (versionedDocument "3.1.0").openapi).Gives version → version = "3.1.0" := by
    rintro version (hsome | hsome) <;> cases hsome
    rfl
  have hbuild : build (versionedDocument "3.1.0") = .ok { schemas := [("Name", "string")] } := rfl
  have hfile : generate { generatedAt := ⟨0, 0⟩ } (versionedDocument "3.1.0") = .ok _ :=
    generate_eq_ok_iff.mpr ⟨_, hbuild, rfl⟩
  obtain ⟨decls, hdecls, -, hcomment, hstrip⟩ := generate_comment_iff hfile
  refine ⟨_, hfile, decls, hdecls, ?_, hcomment.mpr ?_, hstrip.mpr ?_⟩
  · rw [hbuild] at hdecls
    cases hdecls
    rfl
  · intro version hgives
    rw [hversion version hgives]
    decide
  · intro version hgives
    rw [hversion version hgives]
    decide

/-- A version of the format that ends a comment ends the banner early. -/
theorem not_generate_comment :
    ¬ ∀ (banner : Banner) (doc : Document) (file : String) (decls : Declarations),
      generate banner doc = .ok file → build doc = .ok decls →
        behindComment? file.toList = some ("\n\n" ++ decls.render).toList := by
  intro h
  have hbuild : build (versionedDocument "3.1.0 */") = .ok { schemas := [("Name", "string")] } :=
    rfl
  have hfile : generate { generatedAt := ⟨0, 0⟩ } (versionedDocument "3.1.0 */") = .ok _ :=
    generate_eq_ok_iff.mpr ⟨_, hbuild, rfl⟩
  have hclosed := h _ _ _ _ hfile hbuild
  rw [Declarations.renderFile, String.toList_append, String.toList_append,
    Banner.behindComment?_render_iff, Banner.not_brings_iff] at hclosed
  exact hclosed "3.1.0 */" (.inr rfl) (by decide)

end OpenApiTypings
