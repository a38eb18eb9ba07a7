import OpenApiTypings.Output.Write
import OpenApiTypings.Proofs.Text.Lines

/-!
# The form in which a file is written is a normal form

Bringing a text into the form in which it is written a second time changes nothing.
Text with something behind a newline is brought into it piece by piece.

The form can be told by looking at a text: no line ends in a blank, and there is one newline at
the end, which no empty line stands in front of.  Two texts have the same form just when they
have the same lines up to blanks at the ends of lines and empty lines at the end.
-/

namespace OpenApiTypings.Output

open OpenApiTypings.Text

/-- The text without blanks at the ends of its lines. -/
def trimLines (text : List Char) : List Char :=
  unlines ((lines text).map (trimEnd isTrailingBlank))

theorem trimLines_append_newline (before behind : List Char) :
    trimLines (before ++ '\n' :: behind) = trimLines before ++ '\n' :: trimLines behind := by
  unfold trimLines
  rw [lines_append_newline, List.map_append,
    unlines_append (map_lines_ne_nil _ before) (map_lines_ne_nil _ behind)]

theorem trimLines_single {front : List Char} {c : Char} (hline : '\n' ∉ front ++ [c])
    (hc : isTrailingBlank c = false) : trimLines (front ++ [c]) = front ++ [c] := by
  unfold trimLines
  rw [lines_of_notMem hline, List.map_singleton, trimEnd_concat_of_not hc]
  simp [unlines]

/-! ### Texts with something in them -/

theorem significantLines_ne_nil {c : Char} {text : List Char} (hmem : c ∈ text)
    (hc : c ≠ '\n') (hblank : isTrailingBlank c = false) : significantLines text ≠ [] := by
  intro hnil
  obtain ⟨line, hline, hchar⟩ := exists_mem_lines hc hmem
  have hall := List.rdropWhile_eq_nil_iff.mp hnil
  have hempty := List.isEmpty_iff.mp (hall _ (List.mem_map_of_mem hline))
  have hblank' := List.rdropWhile_eq_nil_iff.mp hempty c hchar
  rw [hblank] at hblank'
  cases hblank'

theorem normalize_append_newline {behind : List Char} (hbehind : significantLines behind ≠ [])
    (before : List Char) :
    normalize (before ++ '\n' :: behind) = trimLines before ++ '\n' :: normalize behind := by
  have hlines : significantLines (before ++ '\n' :: behind) =
      (lines before).map (trimEnd isTrailingBlank) ++ significantLines behind := by
    unfold significantLines at hbehind ⊢
    rw [lines_append_newline, List.map_append, trimEnd_append_of_ne_nil hbehind]
  unfold normalize
  rw [hlines, unlines_append (map_lines_ne_nil _ before) hbehind, List.append_assoc]
  rfl

/-- Whole lines in front of a text stay in front of it. -/
theorem normalize_append {front before behind : List Char} (hfront : before = front ++ ['\n'])
    (hbehind : significantLines behind ≠ []) :
    normalize (before ++ behind) = trimLines before ++ normalize behind := by
  have hwhole : before ++ behind = front ++ '\n' :: behind := by simp [hfront]
  have htrim : trimLines before = trimLines front ++ ['\n'] := by
    rw [hfront, trimLines_append_newline]
    rfl
  rw [hwhole, normalize_append_newline hbehind, htrim, List.append_assoc]
  rfl

/-! ### Once more -/

theorem notMem_of_mem_significantLines {text line : List Char}
    (hmem : line ∈ significantLines text) : '\n' ∉ line := by
  obtain ⟨whole, hwhole, rfl⟩ := List.mem_map.mp (mem_of_mem_trimEnd hmem)
  exact fun hnewline => notMem_of_mem_lines hwhole (mem_of_mem_trimEnd hnewline)

theorem trimEnd_of_mem_significantLines {text line : List Char}
    (hmem : line ∈ significantLines text) : trimEnd isTrailingBlank line = line := by
  obtain ⟨whole, _, rfl⟩ := List.mem_map.mp (mem_of_mem_trimEnd hmem)
  exact trimEnd_trimEnd whole

theorem map_trimEnd_significantLines (text : List Char) :
    (significantLines text).map (trimEnd isTrailingBlank) = significantLines text :=
  (List.map_congr_left fun _ => trimEnd_of_mem_significantLines).trans (List.map_id' _)

theorem lines_normalize {text : List Char} (htext : significantLines text ≠ []) :
    lines (normalize text) = significantLines text ++ [[]] := by
  rw [normalize, lines_append_newline,
    lines_unlines htext fun _ hmem => notMem_of_mem_significantLines hmem]
  rfl

theorem significantLines_normalize (text : List Char) :
    significantLines (normalize text) = significantLines text := by
  by_cases hnil : significantLines text = []
  · rw [normalize, hnil]
    rfl
  · have hend : trimEnd List.isEmpty [([] : List Char)] = [] := rfl
    calc significantLines (normalize text)
        = trimEnd List.isEmpty ((significantLines text ++ [[]]).map (trimEnd isTrailingBlank)) := by
          rw [significantLines, lines_normalize hnil]
      _ = trimEnd List.isEmpty (significantLines text ++ [[]]) := by
          rw [List.map_append, map_trimEnd_significantLines]
          rfl
      _ = trimEnd List.isEmpty (significantLines text) := trimEnd_append_nil hend
      _ = significantLines text := trimEnd_trimEnd _

theorem normalize_normalize (text : List Char) : normalize (normalize text) = normalize text := by
  rw [normalize, significantLines_normalize, ← normalize]

/-! ### The form told by looking at a text -/

/-- No line ends in a blank, and the newline at the end stands behind a line that is not empty,
unless it is all there is. -/
structure IsNormal (text : List Char) : Prop where
  no_blank : ∀ line ∈ lines text, ∀ c, line.getLast? = some c → c ≠ ' ' ∧ c ≠ '\t'
  one_newline : text = ['\n'] ∨ ∃ front c, text = front ++ [c, '\n'] ∧ c ≠ '\n'

theorem trimEnd_isTrailingBlank_iff {line : List Char} : trimEnd isTrailingBlank line = line ↔
    ∀ c, line.getLast? = some c → c ≠ ' ' ∧ c ≠ '\t' := by
  simp [trimEnd_eq_self_iff, isTrailingBlank]

/-- A text is written without the blanks at the ends of its lines, then without the newlines at
its own end, and with one newline behind it. -/
theorem normalize_eq_trimEnd (text : List Char) :
    normalize text = trimEnd (· = '\n') (trimLines text) ++ ['\n'] := by
  have hparts : ∀ line ∈ (lines text).map (trimEnd isTrailingBlank), '\n' ∉ line := by
    intro line hmem
    obtain ⟨whole, hwhole, rfl⟩ := List.mem_map.mp hmem
    exact fun hnewline => notMem_of_mem_lines hwhole (mem_of_mem_trimEnd hnewline)
  rw [trimLines, trimEnd_unlines hparts]
  rfl

theorem IsNormal.normalize_eq {text : List Char} (h : IsNormal text) : normalize text = text := by
  rcases h.one_newline with rfl | ⟨front, c, htext, hc⟩
  · rfl
  · have htrim : trimLines text = text := by
      rw [trimLines, List.map_congr_left fun line hmem =>
        trimEnd_isTrailingBlank_iff.mpr (h.no_blank line hmem), List.map_id', unlines_lines]
    have hend : front ++ [c, '\n'] = front ++ [c] ++ ['\n'] := by simp
    have hnewline : trimEnd (fun d : Char => decide (d = '\n')) ['\n'] = [] := rfl
    rw [normalize_eq_trimEnd, htrim, htext, hend, trimEnd_append_nil hnewline,
      trimEnd_concat_of_not (by simpa using hc)]

/-- The last line that is written is not empty. -/
theorem exists_significantLines_concat {text : List Char} (htext : significantLines text ≠ []) :
    ∃ front start c, significantLines text = front ++ [start ++ [c]] := by
  obtain ⟨front, last, hlast⟩ := (List.eq_nil_or_concat (significantLines text)).resolve_left htext
  rw [List.concat_eq_append] at hlast
  have htrim : trimEnd List.isEmpty (significantLines text) = significantLines text :=
    trimEnd_trimEnd _
  have hfull : last.isEmpty = false := trimEnd_eq_self_iff.mp htrim last (by simp [hlast])
  obtain ⟨start, c, hconcat⟩ :=
    (List.eq_nil_or_concat last).resolve_left (List.isEmpty_eq_false_iff.mp hfull)
  exact ⟨front, start, c, by rw [hlast, hconcat, List.concat_eq_append]⟩

theorem normalize_of_eq_nil {text : List Char} (htext : significantLines text = []) :
    normalize text = ['\n'] := by
  rw [normalize, htext]
  rfl

theorem isNormal_normalize (text : List Char) : IsNormal (normalize text) := by
  by_cases hnil : significantLines text = []
  · have hlines : lines ['\n'] = [[], []] := rfl
    rw [normalize_of_eq_nil hnil]
    exact ⟨by simp [hlines], Or.inl rfl⟩
  · constructor
    · intro line hmem
      rw [← trimEnd_isTrailingBlank_iff]
      rw [lines_normalize hnil] at hmem
      rcases List.mem_append.mp hmem with hline | hend
      · exact trimEnd_of_mem_significantLines hline
      · rw [List.mem_singleton.mp hend]
        rfl
    · obtain ⟨front, start, c, hlines⟩ := exists_significantLines_concat hnil
      have hc : c ≠ '\n' := by
        rintro rfl
        have hlast : start ++ ['\n'] ∈ significantLines text := by simp [hlines]
        exact notMem_of_mem_significantLines hlast (by simp)
      refine Or.inr ⟨unlines (front ++ [start]), c, ?_, hc⟩
      rw [normalize, hlines, unlines_concat, List.append_assoc]
      rfl

/-! ### Texts with the same form -/

/-- Nothing is written of a text of blanks and newlines. -/
theorem significantLines_eq_nil_iff {text : List Char} :
    significantLines text = [] ↔ ∀ c ∈ text, c = '\n' ∨ isTrailingBlank c = true := by
  constructor
  · intro hnil c hmem
    by_contra hc
    rw [not_or, Bool.not_eq_true] at hc
    exact significantLines_ne_nil hmem hc.1 hc.2 hnil
  · intro hblank
    refine List.rdropWhile_eq_nil_iff.mpr fun line hmem => ?_
    obtain ⟨whole, hwhole, rfl⟩ := List.mem_map.mp hmem
    have hempty : trimEnd isTrailingBlank whole = [] := by
      refine List.rdropWhile_eq_nil_iff.mpr fun c hc => ?_
      have hne : c ≠ '\n' := fun heq => notMem_of_mem_lines hwhole (heq ▸ hc)
      exact (hblank c (mem_of_mem_lines hwhole hc)).resolve_left hne
    rw [hempty]
    rfl

theorem normalize_eq_newline_iff {text : List Char} :
    normalize text = ['\n'] ↔ ∀ c ∈ text, c = '\n' ∨ c = ' ' ∨ c = '\t' := by
  have hblank : (∀ c ∈ text, c = '\n' ∨ c = ' ' ∨ c = '\t') ↔ significantLines text = [] := by
    simp [significantLines_eq_nil_iff, isTrailingBlank]
  rw [hblank]
  constructor
  · intro h
    rw [← significantLines_normalize, h]
    rfl
  · exact normalize_of_eq_nil

theorem normalize_eq_iff {a b : List Char} :
    normalize a = normalize b ↔ significantLines a = significantLines b := by
  constructor
  · intro h
    rw [← significantLines_normalize a, h, significantLines_normalize]
  · intro h
    rw [normalize, h, ← normalize]

/-- The form in which a text is written is canonical.  It is the text line by line without the
blanks at the ends of the lines, without the newlines at its end and with one newline behind it; a
text that has the form, and no other, is left as it is; a text of blanks and newlines becomes one
newline; and two texts come to the same form just when they have the same lines up to blanks at the
ends of lines and empty lines at the end. -/
theorem normalize_canonical (a b : List Char) :
    normalize a = trimEnd (· = '\n') (unlines ((lines a).map (trimEnd isTrailingBlank))) ++ ['\n'] ∧
    normalize (normalize a) = normalize a ∧
    IsNormal (normalize a) ∧ (normalize a = a ↔ IsNormal a) ∧
    (normalize a = ['\n'] ↔ ∀ c ∈ a, c = '\n' ∨ c = ' ' ∨ c = '\t') ∧
    (normalize a = normalize b ↔
      trimEnd List.isEmpty ((lines a).map (trimEnd isTrailingBlank)) =
        trimEnd List.isEmpty ((lines b).map (trimEnd isTrailingBlank))) := by
  refine ⟨normalize_eq_trimEnd a, normalize_normalize a, isNormal_normalize a, ?_,
    normalize_eq_newline_iff, normalize_eq_iff⟩
  exact ⟨fun h => h ▸ isNormal_normalize a, IsNormal.normalize_eq⟩

end OpenApiTypings.Output
