import OpenApiTypings.Declarations.Render
import OpenApiTypings.Proofs.Output.Normal
import OpenApiTypings.Proofs.Text.Affix

/-!
# Files that differ in the time of their banner

The end of the banner is recognised by the blank line behind it.  A file without
declarations has none, since a file ends with its last line; and a version may bring a
comment's end with a blank line of its own, above the line with the time.  In all other
files nothing of the banner is compared.
-/

namespace OpenApiTypings

open OpenApiTypings.Output OpenApiTypings.Text

/-! ### Times -/

/-- A character of a date and time. -/
def isTimeChar (c : Char) : Bool :=
  c.isDigit || ['+', '-', ':', 'T', 'Z'].contains c

def IsTimeText (text : String) : Prop := ∀ c ∈ text.toList, isTimeChar c = true

instance (text : String) : Decidable (IsTimeText text) :=
  List.decidableBAll (isTimeChar · = true) text.toList

theorem IsTimeText.append {front back : String} (hfront : IsTimeText front)
    (hback : IsTimeText back) : IsTimeText (front ++ back) := by
  intro c hc
  rw [String.toList_append] at hc
  rcases List.mem_append.mp hc with hleft | hright
  · exact hfront c hleft
  · exact hback c hright

theorem isTimeText_padded (width n : Nat) : IsTimeText (padded width n) := by
  intro c hc
  unfold padded at hc
  rw [String.toList_append, String.toList_ofList, List.mem_append] at hc
  rcases hc with hzero | hdigit
  · rw [(List.mem_replicate.mp hzero).2]
    rfl
  · rw [Nat.toList_repr] at hdigit
    have hc : c.isDigit = true := Nat.isDigit_of_mem_toDigits (by decide) (by decide) hdigit
    rw [isTimeChar, hc, Bool.true_or]

theorem isTimeText_yearText (year : Int) : IsTimeText (yearText year) := by
  have hminus : IsTimeText "-" := by decide
  have hplus : IsTimeText "+" := by decide
  unfold yearText
  split
  · exact isTimeText_padded _ _
  · split
    · exact hminus.append (isTimeText_padded _ _)
    · exact hplus.append (isTimeText_padded _ _)

/-- The date and time in front of the letter for universal time. -/
theorem Moment.exists_text_eq (moment : Moment) :
    ∃ front, moment.text = front ++ "Z" ∧ IsTimeText front := by
  have hdash : IsTimeText "-" := by decide
  have hmiddle : IsTimeText "T" := by decide
  have hcolon : IsTimeText ":" := by decide
  refine ⟨_, rfl, ?_⟩
  refine IsTimeText.append ?_ (isTimeText_padded _ _)
  refine IsTimeText.append ?_ hcolon
  refine IsTimeText.append ?_ (isTimeText_padded _ _)
  refine IsTimeText.append ?_ hcolon
  refine IsTimeText.append ?_ (isTimeText_padded _ _)
  refine IsTimeText.append ?_ hmiddle
  refine IsTimeText.append ?_ (isTimeText_padded _ _)
  refine IsTimeText.append ?_ hdash
  refine IsTimeText.append ?_ (isTimeText_padded _ _)
  exact (isTimeText_yearText _).append hdash

/-! ### The line with the time -/

namespace Banner

/-- The comment down to the line with the time. -/
def opening (banner : Banner) : String :=
  "/*\n" ++ " * @Warning: THIS FILE IS AUTO-GENERATED - DO NOT EDIT\n" ++ " *\n" ++
    " * Generator: " ++ banner.generator ++ "\n" ++ banner.versionLine

/-- A version of the banner holds the end of a comment and a blank line. -/
def EndsEarly (banner : Banner) : Prop :=
  bannerEnd <:+: trimLines banner.opening.toList

instance (banner : Banner) : Decidable banner.EndsEarly :=
  inferInstanceAs (Decidable (bannerEnd <:+: trimLines banner.opening.toList))

end Banner

/-- The line with the time. -/
def Moment.line (moment : Moment) : String :=
  " * Generated at: " ++ moment.text ++ "\n"

/-- What stands behind the line with the time in a finished file. -/
def closing (body : List Char) : List Char :=
  normalize (" */\n\n".toList ++ body)

theorem Banner.render_eq (banner : Banner) :
    banner.render = banner.opening ++ (banner.generatedAt.line ++ " */\n\n") := by
  -- for any texts: the literals themselves are not to be opened by the rewriting
  have hassoc : ∀ a b c d e : String, a ++ b ++ c ++ d ++ e = a ++ (b ++ c ++ d ++ e) := by
    intro a b c d e
    simp only [String.append_assoc]
  exact hassoc banner.opening _ _ _ _

theorem Banner.exists_opening_eq (banner : Banner) :
    ∃ front, banner.opening = front ++ "\n" := by
  unfold opening versionLine
  split
  · exact ⟨_, String.append_empty⟩
  · split
    · exact ⟨_, String.append_empty⟩
    · exact ⟨_, String.append_assoc.symm⟩

theorem Moment.exists_line_eq (moment : Moment) :
    ∃ front, moment.line.toList = ' ' :: front ++ ['Z'] ++ ['\n'] ∧ '\n' ∉ front ∧
      '/' ∉ front := by
  obtain ⟨front, htext, hfront⟩ := moment.exists_text_eq
  have hnewline : '\n' ∉ front.toList := fun hmem => absurd (hfront _ hmem) (by decide)
  have hslash : '/' ∉ front.toList := fun hmem => absurd (hfront _ hmem) (by decide)
  refine ⟨"* Generated at: ".toList ++ front.toList, ?_, ?_, ?_⟩
  · have hline : moment.line = " * Generated at: " ++ (front ++ "Z") ++ "\n" :=
      congrArg (" * Generated at: " ++ · ++ "\n") htext
    have hlabel : " * Generated at: ".toList = ' ' :: "* Generated at: ".toList := by decide
    rw [hline, String.toList_append, String.toList_append, String.toList_append, hlabel,
      List.cons_append, List.cons_append, List.append_assoc]
    rfl
  · exact fun hmem => (List.mem_append.mp hmem).elim (absurd · (by decide)) hnewline
  · exact fun hmem => (List.mem_append.mp hmem).elim (absurd · (by decide)) hslash

theorem Moment.line_inj {moment later : Moment} :
    moment.line.toList = later.line.toList ↔ moment.text = later.text := by
  constructor
  · intro h
    unfold line at h
    rw [String.toList_append, String.toList_append, String.toList_append,
      String.toList_append] at h
    exact String.toList_inj.mp (List.append_cancel_left (List.append_cancel_right h))
  · exact congrArg fun text => (" * Generated at: " ++ text ++ "\n").toList

/-! ### The finished file -/

theorem closing_nil : closing [] = ' ' :: "*/\n".toList := by decide

theorem closing_eq {body : List Char} (hbody : significantLines body ≠ []) :
    closing body = ' ' :: (bannerEnd ++ normalize body) := by
  have htrim : trimLines " */\n\n".toList = ' ' :: bannerEnd := by decide
  have hlast : " */\n\n".toList = " */\n".toList ++ ['\n'] := by decide
  rw [closing, normalize_append hlast hbody, htrim, List.cons_append]

theorem trimLines_line (moment : Moment) :
    trimLines moment.line.toList = moment.line.toList := by
  obtain ⟨front, hline, hnewline, _⟩ := moment.exists_line_eq
  rw [hline, trimLines_append_newline, trimLines_single (by simp [hnewline]) (by decide)]
  rfl

theorem normalize_render (banner : Banner) (body : List Char) :
    normalize (banner.render.toList ++ body) =
      trimLines banner.opening.toList ++
        (banner.generatedAt.line.toList ++ closing body) := by
  obtain ⟨front, hopening⟩ := banner.exists_opening_eq
  obtain ⟨time, hline, _, _⟩ := banner.generatedAt.exists_line_eq
  have hwhole : banner.render.toList ++ body = banner.opening.toList ++
      (banner.generatedAt.line.toList ++ (" */\n\n".toList ++ body)) := by
    rw [banner.render_eq, String.toList_append, String.toList_append, List.append_assoc,
      List.append_assoc]
  have hfront : banner.opening.toList = front.toList ++ ['\n'] := by
    rw [hopening, String.toList_append]
    rfl
  have hslash : '/' ∈ " */\n\n".toList ++ body :=
    List.mem_append_left _ (by decide)
  have hend : significantLines (" */\n\n".toList ++ body) ≠ [] :=
    significantLines_ne_nil hslash (by decide) (by decide)
  have hrest : significantLines
      (banner.generatedAt.line.toList ++ (" */\n\n".toList ++ body)) ≠ [] :=
    significantLines_ne_nil (List.mem_append_right _ hslash) (by decide) (by decide)
  rw [hwhole, normalize_append hfront hrest, normalize_append hline hend, trimLines_line,
    closing]

/-! ### What is compared -/

theorem exists_trimLines_opening_eq (banner : Banner) :
    ∃ rest, trimLines banner.opening.toList = bannerStart ++ rest := by
  have hassoc : ∀ a b c d e f g : String,
      a ++ b ++ c ++ d ++ e ++ f ++ g = a ++ (b ++ c ++ d ++ e ++ f ++ g) := by
    intro a b c d e f g
    simp only [String.append_assoc]
  obtain ⟨rest, hopening⟩ : ∃ rest, banner.opening = "/*\n" ++ rest :=
    ⟨_, hassoc "/*\n" _ _ _ _ _ _⟩
  have hlist : banner.opening.toList = "/*".toList ++ '\n' :: rest.toList := by
    rw [hopening, String.toList_append]
    rfl
  refine ⟨trimLines rest.toList, ?_⟩
  rw [hlist, trimLines_append_newline]
  rfl

/-- The line with the time parts what stands above it from what stands below it. -/
theorem dropThrough?_line {mark : List Char} (hslash : '/' ∈ mark) (hspace : ' ' ∉ mark)
    (above : List Char) (moment : Moment) (below : List Char) :
    dropThrough? mark (above ++ (moment.line.toList ++ ' ' :: below)) =
      ((dropThrough? mark above).map (· ++ (moment.line.toList ++ ' ' :: below))).or
        (dropThrough? mark below) := by
  obtain ⟨front, hline, _, hfront⟩ := moment.exists_line_eq
  have hline' : moment.line.toList = ' ' :: (front ++ ['Z'] ++ ['\n']) := hline
  have htime : dropThrough? mark (front ++ ['Z'] ++ ['\n']) = none :=
    dropThrough?_eq_none_of_notMem hslash (by simp [hfront])
  have hmark : mark ≠ [] := List.ne_nil_of_mem hslash
  rw [hline', List.cons_append, dropThrough?_append_stop hspace hmark,
    dropThrough?_append_stop hspace hmark, htime]
  rfl

/-- The end of the banner lies above the line with the time or below it. -/
theorem dropThrough?_bannerEnd (opening : List Char) (moment : Moment) (below : List Char) :
    dropThrough? bannerEnd (opening ++ (moment.line.toList ++ ' ' :: below)) =
      ((dropThrough? bannerEnd opening).map (· ++ (moment.line.toList ++ ' ' :: below))).or
        (dropThrough? bannerEnd below) :=
  dropThrough?_line (by decide) (by decide) opening moment below

/-- A file is compared from the end of its banner on; without one all of it is. -/
theorem stripBanner_normalize_render (banner : Banner) (body : List Char) :
    stripBanner (normalize (banner.render.toList ++ body)) =
      (dropThrough? bannerEnd (normalize (banner.render.toList ++ body))).getD
        (normalize (banner.render.toList ++ body)) := by
  obtain ⟨rest, hopening⟩ := exists_trimLines_opening_eq banner
  have hstart : dropHead? bannerStart (normalize (banner.render.toList ++ body)) =
      some (rest ++ (banner.generatedAt.line.toList ++ closing body)) := by
    rw [dropHead?_eq_some_iff, normalize_render, hopening, List.append_assoc]
  rw [stripBanner, hstart]

/-- Two files that differ in the time alone are taken for the same when the times read
the same, or when the end of the banner is found below the time. -/
theorem stripBanner_eq_iff (banner : Banner) (later : Moment) {body : List Char}
    (hbody : body = [] ∨ significantLines body ≠ []) :
    stripBanner (normalize (banner.render.toList ++ body)) =
        stripBanner
          (normalize (({ banner with generatedAt := later } : Banner).render.toList ++ body)) ↔
      banner.generatedAt.text = later.text ∨ (body ≠ [] ∧ ¬ banner.EndsEarly) := by
  have hopening : ({ banner with generatedAt := later } : Banner).opening = banner.opening := rfl
  rw [stripBanner_normalize_render, stripBanner_normalize_render, normalize_render,
    normalize_render, hopening]
  cases hearly : dropThrough? bannerEnd (trimLines banner.opening.toList) with
  | some rest =>
    have hends : banner.EndsEarly := by
      by_contra hnot
      rw [dropThrough?_eq_none_iff.mpr hnot] at hearly
      cases hearly
    obtain ⟨below, hbelow⟩ : ∃ below, closing body = ' ' :: below := by
      rcases hbody with rfl | hbody
      · exact ⟨_, closing_nil⟩
      · exact ⟨_, closing_eq hbody⟩
    rw [hbelow, dropThrough?_bannerEnd, dropThrough?_bannerEnd, hearly]
    simp [hends, Moment.line_inj]
  | none =>
    have hends : ¬ banner.EndsEarly := dropThrough?_eq_none_iff.mp hearly
    rcases hbody with rfl | hbody
    · have hbelow : dropThrough? bannerEnd "*/\n".toList = none := by decide
      rw [closing_nil, dropThrough?_bannerEnd, dropThrough?_bannerEnd, hearly, hbelow]
      simp [Moment.line_inj]
    · have hne : body ≠ [] := by
        rintro rfl
        exact hbody rfl
      rw [closing_eq hbody, dropThrough?_bannerEnd, dropThrough?_bannerEnd, hearly,
        dropThrough?_append]
      simp [hends, hne]

/-! ### Versions on one line -/

/-- Whole lines, with a star in each. -/
def IsStarred (text : List Char) : Prop :=
  ∃ parts : List (List Char), text = parts.flatMap (· ++ ['\n']) ∧
    ∀ line ∈ parts, '\n' ∉ line ∧ '*' ∈ line

theorem IsStarred.append {front back : List Char} (hfront : IsStarred front)
    (hback : IsStarred back) : IsStarred (front ++ back) := by
  obtain ⟨parts, rfl, hparts⟩ := hfront
  obtain ⟨others, rfl, hothers⟩ := hback
  refine ⟨parts ++ others, List.flatMap_append.symm, ?_⟩
  intro line hline
  rcases List.mem_append.mp hline with hleft | hright
  · exact hparts line hleft
  · exact hothers line hright

theorem isStarred_line {line : List Char} (hnewline : '\n' ∉ line) (hstar : '*' ∈ line) :
    IsStarred (line ++ ['\n']) := by
  refine ⟨[line], by simp, ?_⟩
  intro other hother
  rw [List.mem_singleton.mp hother]
  exact ⟨hnewline, hstar⟩

theorem IsStarred.lines_eq {text : List Char} (h : IsStarred text) :
    ∃ parts, lines text = parts ++ [[]] ∧ ∀ line ∈ parts, '*' ∈ line := by
  obtain ⟨parts, rfl, hparts⟩ := h
  refine ⟨parts, ?_, fun line hline => (hparts line hline).2⟩
  induction parts with
  | nil => rfl
  | cons first more ih =>
    have hfirst : lines first = [first] := lines_of_notMem (hparts first List.mem_cons_self).1
    rw [List.flatMap_cons, List.append_assoc, List.singleton_append, lines_append_newline,
      hfirst, ih fun line hline => hparts line (List.mem_cons_of_mem _ hline)]
    rfl

/-- Only the last line of starred lines is empty. -/
theorem IsStarred.not_bannerEnd {text : List Char} (h : IsStarred text) :
    ¬ bannerEnd <:+: trimLines text := by
  rintro ⟨before, behind, heq⟩
  obtain ⟨parts, hlines, hparts⟩ := h.lines_eq
  have htrimmed : lines (trimLines text) = (lines text).map (trimEnd isTrailingBlank) := by
    apply lines_unlines (map_lines_ne_nil _ _)
    intro line hline
    obtain ⟨whole, hwhole, rfl⟩ := List.mem_map.mp hline
    exact fun hnewline => notMem_of_mem_lines hwhole (mem_of_mem_trimEnd hnewline)
  have hend : before ++ bannerEnd ++ behind =
      (before ++ "*/".toList) ++ '\n' :: ([] ++ '\n' :: behind) := by
    rw [List.append_assoc, List.append_assoc]
    rfl
  rw [← heq, hend, lines_append_newline, lines_append_newline, hlines, List.map_append]
    at htrimmed
  obtain ⟨rest, last, hlast⟩ :=
    (List.eq_nil_or_concat' (lines behind)).resolve_left (lines_ne_nil behind)
  have hinit : lines (before ++ "*/".toList) ++ lines [] ++ rest =
      parts.map (trimEnd isTrailingBlank) := by
    rw [hlast, ← List.append_assoc, ← List.append_assoc] at htrimmed
    exact List.append_inj_left' htrimmed rfl
  have hempty : [] ∈ parts.map (trimEnd isTrailingBlank) := by
    rw [← hinit]
    exact List.mem_append_left _ (List.mem_append_right _ List.mem_cons_self)
  obtain ⟨line, hline, htrim⟩ := List.mem_map.mp hempty
  have hblank := List.rdropWhile_eq_nil_iff.mp htrim '*' (hparts line hline)
  cases hblank

/-- Versions on one line do not end the banner. -/
theorem Banner.not_endsEarly {banner : Banner} (hgenerator : '\n' ∉ banner.generator.toList)
    (hversion : ∀ version, banner.openapiVersion = some version → '\n' ∉ version.toList) :
    ¬ banner.EndsEarly := by
  have hstart : IsStarred "/*\n".toList := ⟨["/*".toList], rfl, by decide⟩
  have hwarning : IsStarred
      " * @Warning: THIS FILE IS AUTO-GENERATED - DO NOT EDIT\n".toList :=
    ⟨[" * @Warning: THIS FILE IS AUTO-GENERATED - DO NOT EDIT".toList], by decide +kernel,
      by decide +kernel⟩
  have hempty : IsStarred " *\n".toList := ⟨[" *".toList], rfl, by decide⟩
  have hlabel : '\n' ∉ " * Generator: ".toList ∧ '*' ∈ " * Generator: ".toList := by decide
  have hprogram : IsStarred ((" * Generator: ".toList ++ banner.generator.toList) ++ ['\n']) :=
    isStarred_line (fun hmem => (List.mem_append.mp hmem).elim hlabel.1 hgenerator)
      (List.mem_append_left _ hlabel.2)
  have hline : IsStarred banner.versionLine.toList := by
    unfold versionLine
    split
    · exact ⟨[], rfl, fun _ hmem => absurd hmem List.not_mem_nil⟩
    · rename_i version hsome
      split
      · exact ⟨[], rfl, fun _ hmem => absurd hmem List.not_mem_nil⟩
      · have hname : '\n' ∉ " * OpenAPI version: ".toList ∧
            '*' ∈ " * OpenAPI version: ".toList := by decide
        rw [String.toList_append, String.toList_append]
        exact isStarred_line
          (fun hmem => (List.mem_append.mp hmem).elim hname.1 (hversion version hsome))
          (List.mem_append_left _ hname.2)
  apply IsStarred.not_bannerEnd
  unfold opening
  simp only [String.toList_append]
  have hfront := (hstart.append hwarning).append hempty
  have hwhole := (hfront.append hprogram).append hline
  simp only [List.append_assoc] at hwhole ⊢
  exact hwhole

/-! ### Declarations -/

/-- Nothing, or something to be seen. -/
def IsVisible (text : String) : Prop := text = "" ∨ 'e' ∈ text.toList

theorem IsVisible.append {front back : String} (hfront : IsVisible front)
    (hback : IsVisible back) : IsVisible (front ++ back) := by
  rcases hfront with rfl | hmem
  · rw [String.empty_append]
    exact hback
  · refine Or.inr ?_
    rw [String.toList_append]
    exact List.mem_append_left _ hmem

theorem isVisible_join {pieces : List String} (h : ∀ piece ∈ pieces, IsVisible piece) :
    IsVisible (String.join pieces) := by
  induction pieces with
  | nil => exact Or.inl String.join_nil
  | cons piece rest ih =>
    rw [String.join_cons]
    exact (h piece List.mem_cons_self).append
      (ih fun other hmem => h other (List.mem_cons_of_mem _ hmem))

theorem isVisible_renderEnum (decl : EnumDecl) : IsVisible decl.render := by
  have hlabel : 'e' ∈ "export const enum ".toList := by decide
  refine Or.inr ?_
  unfold EnumDecl.render
  simp only [String.toList_append, List.mem_append]
  exact Or.inl (Or.inl (Or.inl (Or.inl hlabel)))

theorem isVisible_renderItems (label : String) (items : Table ItemTypes) :
    IsVisible (renderItems label items) := by
  unfold renderItems
  split
  · exact Or.inl rfl
  · exact Or.inr (by simp)

namespace Declarations

theorem isVisible_render (decls : Declarations) : IsVisible decls.render := by
  have hservers : IsVisible decls.renderServers := by
    unfold renderServers
    split
    · exact Or.inl rfl
    · exact Or.inr (by simp)
  have hcomponents : IsVisible decls.renderComponents := by
    unfold renderComponents
    simp only
    split
    · exact Or.inl rfl
    · exact Or.inr (by simp)
  refine ((((isVisible_join ?_).append hservers).append hcomponents).append
    (isVisible_renderItems _ _)).append (isVisible_renderItems _ _)
  intro piece hpiece
  obtain ⟨entry, _, rfl⟩ := List.mem_map.mp hpiece
  exact isVisible_renderEnum _

/-- The declarations are missing from a file, or some line of theirs is in it. -/
theorem render_eq_nil_or (decls : Declarations) :
    decls.render.toList = [] ∨ significantLines decls.render.toList ≠ [] := by
  rcases decls.isVisible_render with hempty | hmem
  · exact Or.inl (by rw [hempty]; rfl)
  · exact Or.inr (significantLines_ne_nil hmem (by decide) (by decide))

/-- `stripBanner_eq_iff` for the files of one set of declarations. -/
theorem declareSame_renderFile_iff (decls : Declarations) (banner : Banner) (later : Moment) :
    stripBanner (normalize (decls.renderFile banner).toList) =
        stripBanner (normalize (decls.renderFile { banner with generatedAt := later }).toList) ↔
      banner.generatedAt.text = later.text ∨ (decls.render ≠ "" ∧ ¬ banner.EndsEarly) := by
  have hne : decls.render ≠ "" ↔ decls.render.toList ≠ [] :=
    not_congr String.toList_eq_nil_iff.symm
  rw [renderFile, renderFile, String.toList_append, String.toList_append, hne]
  exact stripBanner_eq_iff banner later decls.render_eq_nil_or

end Declarations

end OpenApiTypings
