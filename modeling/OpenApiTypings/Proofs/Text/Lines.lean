import Mathlib.Data.List.DropRight
import Mathlib.Data.List.Induction
import OpenApiTypings.Proofs.Lists
import OpenApiTypings.Text.Lines

/-!
# Texts as lines

A text is never without lines.  A newline parts the lines before it from the lines
behind it, and lines without newlines are the lines of their text.  Moving the
continuation lines of a text to the right puts the indentation behind every newline
and changes nothing else, so a field is its key and its moved value.
-/

namespace OpenApiTypings.Text

theorem lines_ne_nil (text : List Char) : lines text ≠ [] := by
  cases text with
  | nil => exact List.cons_ne_nil _ _
  | cons c rest =>
    show consPiece '\n' c (lines rest) ≠ []
    unfold consPiece
    split
    · exact List.cons_ne_nil _ _
    · split
      · exact List.cons_ne_nil _ _
      · exact List.cons_ne_nil _ _

theorem map_lines_ne_nil (f : List Char → List Char) (text : List Char) :
    (lines text).map f ≠ [] :=
  fun hnil => lines_ne_nil text (List.map_eq_nil_iff.mp hnil)

theorem lines_newline (rest : List Char) : lines ('\n' :: rest) = [] :: lines rest := rfl

theorem lines_cons_of_ne {c : Char} (hc : c ≠ '\n') {rest first : List Char}
    {more : List (List Char)} (hlines : lines rest = first :: more) :
    lines (c :: rest) = (c :: first) :: more := by
  show consPiece '\n' c (lines rest) = _
  unfold consPiece
  rw [if_neg hc, hlines]

theorem unlines_append_head (front first : List Char) (more : List (List Char)) :
    unlines ((front ++ first) :: more) = front ++ unlines (first :: more) := by
  cases more with
  | nil => simp [unlines]
  | cons second rest => simp [unlines, List.intercalate]

theorem unlines_nil_cons {parts : List (List Char)} (hparts : parts ≠ []) :
    unlines ([] :: parts) = '\n' :: unlines parts := by
  cases parts with
  | nil => exact absurd rfl hparts
  | cons second rest => simp [unlines, List.intercalate]

theorem unlines_lines (text : List Char) : unlines (lines text) = text := by
  induction text with
  | nil => rfl
  | cons c rest ih =>
    by_cases hc : c = '\n'
    · subst hc
      rw [lines_newline, unlines_nil_cons (lines_ne_nil rest), ih]
    · obtain ⟨first, more, hlines⟩ := List.exists_cons_of_ne_nil (lines_ne_nil rest)
      rw [lines_cons_of_ne hc hlines]
      have hhead := unlines_append_head [c] first more
      rw [← hlines, ih] at hhead
      exact hhead

theorem unlines_append {front back : List (List Char)} (hfront : front ≠ [])
    (hback : back ≠ []) : unlines (front ++ back) = unlines front ++ '\n' :: unlines back := by
  induction front with
  | nil => exact absurd rfl hfront
  | cons first more ih =>
    cases more with
    | nil =>
      have hhead := unlines_append_head first [] back
      rw [List.append_nil, unlines_nil_cons hback] at hhead
      rw [List.singleton_append, hhead]
      simp [unlines]
    | cons second rest =>
      have hmore := ih (List.cons_ne_nil _ _)
      simp only [unlines, List.cons_append, List.intercalate_cons_cons] at hmore ⊢
      rw [hmore]
      simp

/-- A text ends in the last character of its last line. -/
theorem unlines_concat (front : List (List Char)) (start : List Char) (c : Char) :
    unlines (front ++ [start ++ [c]]) = unlines (front ++ [start]) ++ [c] := by
  have hone : ∀ line, unlines [line] = line := by
    intro line
    simp [unlines]
  by_cases hfront : front = []
  · subst hfront
    rw [List.nil_append, List.nil_append, hone, hone]
  · rw [unlines_append hfront (List.cons_ne_nil _ _), unlines_append hfront (List.cons_ne_nil _ _),
      hone, hone, List.append_assoc, List.cons_append]

/-! ### Lines around a newline -/

theorem lines_append_newline (before behind : List Char) :
    lines (before ++ '\n' :: behind) = lines before ++ lines behind := by
  induction before with
  | nil => rfl
  | cons c rest ih =>
    by_cases hc : c = '\n'
    · subst hc
      rw [List.cons_append, lines_newline, lines_newline, ih, List.cons_append]
    · obtain ⟨first, more, hlines⟩ := List.exists_cons_of_ne_nil (lines_ne_nil rest)
      rw [lines_cons_of_ne hc hlines, List.cons_append]
      rw [hlines, List.cons_append] at ih
      rw [lines_cons_of_ne hc ih, List.cons_append]

theorem lines_of_notMem {line : List Char} (hline : '\n' ∉ line) : lines line = [line] := by
  induction line with
  | nil => rfl
  | cons c rest ih =>
    have hc : c ≠ '\n' := fun heq => hline (heq ▸ List.mem_cons_self)
    exact lines_cons_of_ne hc (ih fun hmem => hline (List.mem_cons_of_mem _ hmem))

theorem notMem_of_mem_lines {text line : List Char} (hmem : line ∈ lines text) :
    '\n' ∉ line := by
  induction text generalizing line with
  | nil =>
    rw [List.mem_singleton.mp hmem]
    exact List.not_mem_nil
  | cons c rest ih =>
    by_cases hc : c = '\n'
    · subst hc
      rw [lines_newline] at hmem
      rcases List.mem_cons.mp hmem with rfl | hrest
      · exact List.not_mem_nil
      · exact ih hrest
    · obtain ⟨first, more, hlines⟩ := List.exists_cons_of_ne_nil (lines_ne_nil rest)
      rw [lines_cons_of_ne hc hlines] at hmem
      rcases List.mem_cons.mp hmem with rfl | hmore
      · intro hnewline
        rcases List.mem_cons.mp hnewline with heq | hfirst
        · exact hc heq.symm
        · exact ih (hlines ▸ List.mem_cons_self) hfirst
      · exact ih (hlines ▸ List.mem_cons_of_mem _ hmore)

theorem mem_of_mem_lines {c : Char} {text line : List Char} (hline : line ∈ lines text)
    (hc : c ∈ line) : c ∈ text := by
  induction text generalizing line with
  | nil =>
    rw [List.mem_singleton.mp hline] at hc
    exact hc
  | cons d rest ih =>
    by_cases hd : d = '\n'
    · subst hd
      rw [lines_newline] at hline
      rcases List.mem_cons.mp hline with rfl | hrest
      · exact absurd hc List.not_mem_nil
      · exact List.mem_cons_of_mem _ (ih hrest hc)
    · obtain ⟨first, more, hlines⟩ := List.exists_cons_of_ne_nil (lines_ne_nil rest)
      rw [lines_cons_of_ne hd hlines] at hline
      rcases List.mem_cons.mp hline with rfl | hmore
      · rcases List.mem_cons.mp hc with rfl | hfirst
        · exact List.mem_cons_self
        · exact List.mem_cons_of_mem _ (ih (hlines ▸ List.mem_cons_self) hfirst)
      · exact List.mem_cons_of_mem _ (ih (hlines ▸ List.mem_cons_of_mem _ hmore) hc)

theorem exists_mem_lines {c : Char} {text : List Char} (hc : c ≠ '\n') (hmem : c ∈ text) :
    ∃ line ∈ lines text, c ∈ line := by
  obtain ⟨before, behind, rfl⟩ := List.append_of_mem hmem
  induction before with
  | nil =>
    obtain ⟨first, more, hlines⟩ := List.exists_cons_of_ne_nil (lines_ne_nil behind)
    refine ⟨c :: first, ?_, List.mem_cons_self⟩
    rw [List.nil_append, lines_cons_of_ne hc hlines]
    exact List.mem_cons_self
  | cons d rest ih =>
    obtain ⟨line, hline, hchar⟩ := ih (by simp)
    rw [List.cons_append]
    by_cases hd : d = '\n'
    · subst hd
      exact ⟨line, List.mem_cons_of_mem _ hline, hchar⟩
    · obtain ⟨first, more, hlines⟩ :=
        List.exists_cons_of_ne_nil (lines_ne_nil (rest ++ c :: behind))
      rw [lines_cons_of_ne hd hlines]
      rw [hlines] at hline
      rcases List.mem_cons.mp hline with rfl | hmore
      · exact ⟨d :: line, List.mem_cons_self, List.mem_cons_of_mem _ hchar⟩
      · exact ⟨line, List.mem_cons_of_mem _ hmore, hchar⟩

theorem lines_unlines {parts : List (List Char)} (hparts : parts ≠ [])
    (hline : ∀ line ∈ parts, '\n' ∉ line) : lines (unlines parts) = parts := by
  induction parts with
  | nil => exact absurd rfl hparts
  | cons first more ih =>
    have hfirst : lines first = [first] := lines_of_notMem (hline first List.mem_cons_self)
    by_cases hmore : more = []
    · subst hmore
      have hone : unlines [first] = first := by simp [unlines]
      rw [hone, hfirst]
    · have hsplit := unlines_append (List.cons_ne_nil first []) hmore
      have hone : unlines [first] = first := by simp [unlines]
      rw [List.singleton_append, hone] at hsplit
      rw [hsplit, lines_append_newline, hfirst,
        ih hmore fun line hmem => hline line (List.mem_cons_of_mem _ hmem)]
      rfl

/-! ### Ends without blanks -/

section TrimEnd

variable {α : Type} {p : α → Bool}

theorem trimEnd_eq_rdropWhile (xs : List α) : trimEnd p xs = xs.rdropWhile p := rfl

theorem trimEnd_trimEnd (xs : List α) : trimEnd p (trimEnd p xs) = trimEnd p xs :=
  List.rdropWhile_idempotent p xs

theorem mem_of_mem_trimEnd {xs : List α} {x : α} (hmem : x ∈ trimEnd p xs) : x ∈ xs :=
  (List.rdropWhile_prefix p xs).subset hmem

theorem trimEnd_concat_of_not {xs : List α} {x : α} (hx : p x = false) :
    trimEnd p (xs ++ [x]) = xs ++ [x] :=
  List.rdropWhile_concat_neg p xs x (by simp [hx])

theorem trimEnd_append_nil {xs ys : List α} (hys : trimEnd p ys = []) :
    trimEnd p (xs ++ ys) = trimEnd p xs := by
  induction ys using List.reverseRecOn with
  | nil => rw [List.append_nil]
  | append_singleton ys y ih =>
    have hall : ∀ z ∈ ys ++ [y], p z := List.rdropWhile_eq_nil_iff.mp hys
    rw [← List.append_assoc, trimEnd_eq_rdropWhile,
      List.rdropWhile_concat_pos p _ y (hall y (by simp))]
    exact ih (List.rdropWhile_eq_nil_iff.mpr fun z hz => hall z (by simp [hz]))

theorem trimEnd_append_of_ne_nil {xs ys : List α} (hys : trimEnd p ys ≠ []) :
    trimEnd p (xs ++ ys) = xs ++ trimEnd p ys := by
  induction ys using List.reverseRecOn with
  | nil => exact absurd rfl hys
  | append_singleton ys y ih =>
    by_cases hy : p y
    · rw [trimEnd_eq_rdropWhile, List.rdropWhile_concat_pos p _ y hy] at hys
      rw [← List.append_assoc, trimEnd_eq_rdropWhile, trimEnd_eq_rdropWhile,
        List.rdropWhile_concat_pos p _ y hy, List.rdropWhile_concat_pos p _ y hy]
      exact ih hys
    · rw [← List.append_assoc, trimEnd_eq_rdropWhile, trimEnd_eq_rdropWhile,
        List.rdropWhile_concat_neg p _ y hy, List.rdropWhile_concat_neg p _ y hy]
      rw [List.append_assoc]

theorem trimEnd_eq_self_iff {xs : List α} :
    trimEnd p xs = xs ↔ ∀ x, xs.getLast? = some x → p x = false := by
  rw [trimEnd_eq_rdropWhile, List.rdropWhile_eq_self_iff]
  rcases List.eq_nil_or_concat xs with rfl | ⟨front, x, rfl⟩
  · simp
  · simp

end TrimEnd

/-- The newlines at the end of a text are those of the empty lines at its end. -/
theorem trimEnd_unlines {parts : List (List Char)} (hparts : ∀ line ∈ parts, '\n' ∉ line) :
    trimEnd (· = '\n') (unlines parts) = unlines (trimEnd List.isEmpty parts) := by
  induction parts using List.reverseRecOn with
  | nil => rfl
  | append_singleton front last ih =>
    rcases List.eq_nil_or_concat last with rfl | ⟨start, c, rfl⟩
    · have hempty : trimEnd List.isEmpty [([] : List Char)] = [] := rfl
      have hfrontLines := fun line hmem => hparts line (List.mem_append_left _ hmem)
      rw [trimEnd_append_nil hempty, ← ih hfrontLines]
      by_cases hfront : front = []
      · subst hfront
        rfl
      · rw [unlines_append hfront (List.cons_ne_nil _ _)]
        exact trimEnd_append_nil rfl
    · have hc : c ≠ '\n' := by
        rintro rfl
        exact hparts _ (List.mem_append_right _ List.mem_cons_self) (by simp)
      rw [List.concat_eq_append, unlines_concat, trimEnd_concat_of_not (by simpa using hc),
        trimEnd_concat_of_not (by simp), unlines_concat]

/-! ### Moved lines -/

/-- The indentation stands behind every newline. -/
theorem hang_eq_flatMap (indent text : List Char) :
    hang indent text = text.flatMap fun c => if c = '\n' then '\n' :: indent else [c] := by
  induction text with
  | nil => rfl
  | cons c rest ih =>
    obtain ⟨first, more, hlines⟩ := List.exists_cons_of_ne_nil (lines_ne_nil rest)
    have hrest : unlines (first :: more.map (indent ++ ·)) = hang indent rest := by
      rw [hang, hlines]
    rw [List.flatMap_cons, ← ih]
    by_cases hc : c = '\n'
    · subst hc
      rw [if_pos rfl, hang, lines_newline, hlines]
      simp only [List.map_cons]
      rw [unlines_nil_cons (List.cons_ne_nil _ _), unlines_append_head, hrest]
      rfl
    · rw [if_neg hc, hang, lines_cons_of_ne hc hlines]
      simp only
      have hhead := unlines_append_head [c] first (more.map (indent ++ ·))
      rw [hrest] at hhead
      exact hhead

/-! ### Fields -/

/-- The newline of a line may be written behind it, but for the last one. -/
theorem unlines_concat_line (front : List (List Char)) (last : List Char) :
    unlines (front ++ [last]) = front.flatMap (· ++ ['\n']) ++ last := by
  induction front with
  | nil => simp [unlines]
  | cons first more ih =>
    have hhead := unlines_append (List.cons_ne_nil first [])
      (show more ++ [last] ≠ [] by simp)
    rw [List.cons_append, ← List.singleton_append, hhead, ih]
    simp [unlines]

/-- A field is its key and its value, whose lines are moved under the key. -/
theorem field_eq (indent key value : String) :
    field indent key value =
      indent ++ key ++ ": " ++ String.ofList (hang indent.toList value.toList) ++ ";\n" := by
  obtain ⟨first, rest, hlines⟩ := List.exists_cons_of_ne_nil (lines_ne_nil value.toList)
  rcases List.eq_nil_or_concat rest with rfl | ⟨front, last, rfl⟩
  · simp [field, hang, hlines, unlines]
  · have hhang : hang indent.toList value.toList =
        (first :: front.map (indent.toList ++ ·)).flatMap (· ++ ['\n']) ++
          (indent.toList ++ last) := by
      rw [← unlines_concat_line, hang, hlines]
      simp
    rw [← String.toList_inj]
    -- no line in front has the number of the last one
    simp [field, hlines, hhang, mapIdx_ite_of_length_le, List.flatMap_map]

theorem field_toList (indent key value : String) : (field indent key value).toList =
    indent.toList ++ (key.toList ++ (": ".toList ++
      (hang indent.toList value.toList ++ ";\n".toList))) := by
  simp [field_eq]

end OpenApiTypings.Text
