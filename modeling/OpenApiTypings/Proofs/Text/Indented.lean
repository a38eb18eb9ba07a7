import OpenApiTypings.Proofs.Text.Affix
import OpenApiTypings.Proofs.Text.Bracket
import OpenApiTypings.Proofs.Text.StringValue
import OpenApiTypings.Type.Basic

/-!
# Fields at an indentation

A field at an indentation is its key and its value with the indentation in front of the key and
behind every newline of the value.  Nothing is lost by that: a reader that takes the indentation
off again gives the value back, and it accepts fields only.

Fields nest.  What is moved to the right twice is moved by both indentations at once, so the
fields of an object type that is itself the value of a field stand one step further to the right
than the field, whatever they hold.
-/

namespace OpenApiTypings.Text

/-! ### Moving twice -/

section Hang

variable {indent inner text : List Char}

theorem hang_nil (indent : List Char) : hang indent [] = [] := rfl

theorem hang_append (indent front back : List Char) :
    hang indent (front ++ back) = hang indent front ++ hang indent back := by
  simp only [hang_eq_flatMap, List.flatMap_append]

theorem hang_newline (indent rest : List Char) :
    hang indent ('\n' :: rest) = '\n' :: (indent ++ hang indent rest) := by
  rw [hang_eq_flatMap, List.flatMap_cons, if_pos rfl, List.cons_append, ← hang_eq_flatMap]

theorem hang_cons_of_ne {c : Char} (hc : c ≠ '\n') (indent rest : List Char) :
    hang indent (c :: rest) = c :: hang indent rest := by
  rw [hang_eq_flatMap, List.flatMap_cons, if_neg hc, ← hang_eq_flatMap]
  rfl

theorem hang_lineEnd {c : Char} (hc : c ≠ '\n') (indent : List Char) :
    hang indent [c, '\n'] = c :: '\n' :: indent := by
  rw [hang_cons_of_ne hc, hang_newline, hang_nil, List.append_nil]

theorem hang_of_notMem (htext : '\n' ∉ text) : hang indent text = text := by
  rw [hang, lines_of_notMem htext]
  simp [unlines]

theorem hang_hang (outer : List Char) (hinner : '\n' ∉ inner) (text : List Char) :
    hang outer (hang inner text) = hang (outer ++ inner) text := by
  induction text with
  | nil => rfl
  | cons c rest ih =>
    by_cases hc : c = '\n'
    · subst hc
      rw [hang_newline, hang_newline, hang_newline, hang_append, hang_of_notMem hinner, ih,
        List.append_assoc]
    · rw [hang_cons_of_ne hc, hang_cons_of_ne hc, hang_cons_of_ne hc, ih]

/-! ### Moving back -/

/-- Takes the indentation off the continuation lines of a text, if all of them have it. -/
def unhang? (indent text : List Char) : Option (List Char) :=
  match lines text with
  | [] => none
  | first :: rest => (rest.mapM (dropHead? indent)).map fun rest => unlines (first :: rest)

theorem lines_hang (hindent : '\n' ∉ indent) {first : List Char} {rest : List (List Char)}
    (hlines : lines text = first :: rest) :
    lines (hang indent text) = first :: rest.map (indent ++ ·) := by
  have hline : ∀ line ∈ first :: rest, '\n' ∉ line := by
    intro line hmem
    rw [← hlines] at hmem
    exact notMem_of_mem_lines hmem
  rw [List.forall_mem_cons] at hline
  rw [hang, hlines]
  refine lines_unlines (List.cons_ne_nil _ _) (List.forall_mem_cons.mpr ⟨hline.1, ?_⟩)
  intro line hmem
  obtain ⟨behind, hbehind, rfl⟩ := List.mem_map.mp hmem
  exact fun hnewline => (List.mem_append.mp hnewline).elim hindent (hline.2 behind hbehind)

theorem mapM_dropHead?_eq_some_iff {lines rest : List (List Char)} :
    lines.mapM (dropHead? indent) = some rest ↔ lines = rest.map (indent ++ ·) := by
  induction lines generalizing rest with
  | nil => simp [eq_comm]
  | cons line more ih =>
    simp only [List.mapM_cons, Option.bind_eq_bind, Option.bind_eq_some_iff, dropHead?_eq_some_iff,
      ih]
    constructor
    · rintro ⟨behind, rfl, others, rfl, hrest⟩
      cases hrest
      rfl
    · intro heq
      cases rest with
      | nil => cases heq
      | cons behind others =>
        cases heq
        exact ⟨behind, rfl, others, rfl, rfl⟩

theorem unhang?_eq_some_iff (hindent : '\n' ∉ indent) {value : List Char} :
    unhang? indent text = some value ↔ text = hang indent value := by
  constructor
  · intro hread
    obtain ⟨first, rest, hlines⟩ := List.exists_cons_of_ne_nil (lines_ne_nil text)
    have hline : ∀ line ∈ lines text, '\n' ∉ line := fun line hmem => notMem_of_mem_lines hmem
    simp only [unhang?, hlines, Option.map_eq_some_iff, mapM_dropHead?_eq_some_iff] at hread
    obtain ⟨others, rfl, rfl⟩ := hread
    rw [hlines, List.forall_mem_cons] at hline
    have hvalue : lines (unlines (first :: others)) = first :: others := by
      refine lines_unlines (List.cons_ne_nil _ _) (List.forall_mem_cons.mpr ⟨hline.1, ?_⟩)
      intro line hmem hnewline
      exact hline.2 _ (List.mem_map_of_mem hmem) (List.mem_append_right _ hnewline)
    rw [hang, hvalue, ← unlines_lines text, hlines]
  · rintro rfl
    obtain ⟨first, rest, hlines⟩ := List.exists_cons_of_ne_nil (lines_ne_nil value)
    rw [unhang?, lines_hang hindent hlines]
    simp only [mapM_dropHead?_eq_some_iff.mpr rfl, Option.map_some]
    rw [← hlines, unlines_lines]

end Hang

/-! ### Fields -/

/-- Reads the value of a field with a key at an indentation. -/
def readField? (indent key text : String) : Option String := do
  let behind ← dropHead? (indent ++ key ++ ": ").toList text.toList
  let moved ← dropTail? ";\n".toList behind
  return String.ofList (← unhang? indent.toList moved)

theorem readField?_eq_some_iff {indent : String} (hindent : '\n' ∉ indent.toList)
    {key text value : String} :
    readField? indent key text = some value ↔ text = field indent key value := by
  simp only [readField?, Option.bind_eq_bind, Option.bind_eq_some_iff, dropHead?_eq_some_iff,
    dropTail?_eq_some_iff, unhang?_eq_some_iff hindent]
  rw [← String.toList_inj, field_toList]
  constructor
  · rintro ⟨behind, htext, moved, rfl, back, rfl, hvalue⟩
    cases hvalue
    rw [htext]
    simp
  · intro htext
    refine ⟨_, ?_, _, rfl, value.toList, rfl, ?_⟩
    · rw [htext]
      simp
    · simp

/-! ### Fields in fields -/

theorem newline_notMem_propertyKey (name : String) : '\n' ∉ (propertyKey name).toList := by
  unfold propertyKey
  split
  · rename_i hname
    intro hnewline
    exact absurd (isIdentPart_of_isIdentifier hname hnewline) (by decide)
  · intro hnewline
    exact absurd (isControl_of_mem_quote hnewline) (by decide)

theorem newline_notMem_key (f : Field τ) : '\n' ∉ f.key.toList := by
  rw [Field.key, String.toList_append, List.mem_append, not_or]
  refine ⟨newline_notMem_propertyKey f.name, ?_⟩
  split
  · decide
  · decide

/-- A field that is moved by an indentation is a field at both indentations. -/
theorem hang_field {inner key : String} (hinner : '\n' ∉ inner.toList) (hkey : '\n' ∉ key.toList)
    (outer value : String) :
    outer.toList ++ hang outer.toList (field inner key value).toList =
      (field (outer ++ inner) key value).toList ++ outer.toList := by
  have hmark : hang outer.toList ": ".toList = ": ".toList := hang_of_notMem (by decide)
  have hend : hang outer.toList ";\n".toList = ";\n".toList ++ outer.toList :=
    hang_lineEnd (by decide) _
  simp only [field_toList, hang_append, hang_of_notMem hinner, hang_of_notMem hkey, hmark, hend,
    hang_hang _ hinner, String.toList_append, List.append_assoc]

/-- Fields that are moved by an indentation are fields at both indentations. -/
theorem hang_fields {inner : String} (hinner : '\n' ∉ inner.toList) (outer : String)
    (fields : List (Field String)) :
    outer.toList ++ hang outer.toList
        (String.join (fields.map fun f => field inner f.key f.type)).toList =
      (String.join (fields.map fun f => field (outer ++ inner) f.key f.type)).toList ++
        outer.toList := by
  induction fields with
  | nil => simp [hang_nil]
  | cons f rest ih =>
    simp only [List.map_cons, String.join_cons, String.toList_append, hang_append]
    rw [← List.append_assoc, hang_field hinner (newline_notMem_key f), List.append_assoc, ih,
      List.append_assoc]

/-- The fields of an object type in a field stand two blanks to the right of the field. -/
theorem field_objectText {fields : List (Field String)} (hfields : fields ≠ [])
    (indent key : String) :
    field indent key (Field.objectText fields) = indent ++ key ++ ": \x7b\n" ++
      String.join (fields.map fun f => field (indent ++ "  ") f.key f.type) ++ indent ++
        "\x7d;\n" := by
  have hnonempty : fields.isEmpty = false := List.isEmpty_eq_false_iff.mpr hfields
  have hopen : hang indent.toList "\x7b\n".toList = "\x7b\n".toList ++ indent.toList :=
    hang_lineEnd (by decide) _
  have hclose : hang indent.toList "\x7d".toList = "\x7d".toList := hang_of_notMem (by decide)
  have hblanks : '\n' ∉ "  ".toList := by decide
  have hbody := congrArg (· ++ "\x7d;\n".toList) (hang_fields hblanks indent fields)
  have hend : "\x7d;\n".toList = "\x7d".toList ++ ";\n".toList := rfl
  have hstart : ": \x7b\n".toList = ": ".toList ++ "\x7b\n".toList := rfl
  rw [← String.toList_inj, field_toList, Field.objectText, hnonempty]
  simp only [Bool.false_eq_true, if_false, String.toList_append, hang_append, hopen, hclose,
    hend, hstart, List.append_assoc] at hbody ⊢
  rw [hbody]

/-- What a field adds to a text is its key and its value, with the indentation in front of the key
and behind every newline of the value.  If there is no newline in the indentation itself, what is
moved by it and then by another one is moved by both, be it a value or a field, and a reader that
takes it off again accepts the fields and gives back their values.  The fields of an object type
are fields two blanks to the right of the field that they stand in. -/
theorem field_indented (buffer indent key value : String) :
    buffer ++ field indent key value = buffer ++ indent ++ key ++ ": " ++
      String.ofList (hang indent.toList value.toList) ++ ";\n" ∧
    (∀ front text, hang front text =
      text.flatMap fun c => if c = '\n' then '\n' :: front else [c]) ∧
    ('\n' ∉ indent.toList →
      (∀ outer text, hang outer (hang indent.toList text) = hang (outer ++ indent.toList) text) ∧
      ('\n' ∉ key.toList → ∀ outer : String,
        outer.toList ++ hang outer.toList (field indent key value).toList =
          (field (outer ++ indent) key value).toList ++ outer.toList) ∧
      ∀ text, readField? indent key text = some value ↔ text = field indent key value) ∧
    ∀ fields, fields ≠ [] → field indent key (Field.objectText fields) =
      indent ++ key ++ ": \x7b\n" ++
        String.join (fields.map fun f => field (indent ++ "  ") f.key f.type) ++ indent ++
          "\x7d;\n" := by
  refine ⟨?_, hang_eq_flatMap, fun hindent => ⟨fun outer => hang_hang outer hindent, ?_, ?_⟩,
    fun fields hfields => field_objectText hfields indent key⟩
  · rw [field_eq]
    simp only [String.append_assoc]
  · exact fun hkey outer => hang_field hindent hkey outer value
  · exact fun text => readField?_eq_some_iff hindent

theorem field_indented_nested :
    '\n' ∉ "  ".toList ∧
      field "  " "nested" "\x7b\n  id: string;\n\x7d" =
        "  nested: \x7b\n    id: string;\n  \x7d;\n" ∧
      readField? "  " "nested" "  nested: \x7b\n    id: string;\n  \x7d;\n" =
        some "\x7b\n  id: string;\n\x7d" := by
  have hindent : '\n' ∉ "  ".toList := by decide
  have hfield : field "  " "nested" "\x7b\n  id: string;\n\x7d" =
      "  nested: \x7b\n    id: string;\n  \x7d;\n" := by decide +kernel
  obtain ⟨-, -, hmoved, -⟩ := field_indented "" "  " "nested" "\x7b\n  id: string;\n\x7d"
  obtain ⟨-, -, hread⟩ := hmoved hindent
  exact ⟨hindent, hfield, (hread _).mpr hfield.symm⟩

end OpenApiTypings.Text
