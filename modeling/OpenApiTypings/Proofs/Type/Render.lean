import OpenApiTypings.Proofs.Text.Bracket
import OpenApiTypings.Proofs.Type.Union

/-!
# Texts of types

The text of a union is made from the texts of its members alone.  The text of a type is
atomic when the texts of its parts are, so a type can be put into any other one without
parentheses of its own.
-/

namespace OpenApiTypings

open Text (Balanced)

/-- What stands in parentheses is a text of its own if its parts are balanced. -/
theorem Text.atomic_parenthesized {separator : String} (hseparator : Balanced separator.toList)
    {texts : List String} (h : ∀ text ∈ texts, Balanced text.toList) :
    Text.Atomic (parenthesized separator texts).toList := by
  have hlist : (parenthesized separator texts).toList =
      '(' :: ((separator.intercalate texts).toList ++ [')']) := by
    rw [parenthesized, String.toList_append, String.toList_append]
    rfl
  rw [hlist]
  exact Text.Atomic.bracket rfl (Text.balanced_intercalate hseparator h)

/-! ### Literals, keys and look-ups -/

theorem Literal.atomic_render {l : Literal}
    (hnumber : ∀ digits, l = .number digits → ∀ c ∈ digits.toList, Text.isBare c = true) :
    Text.Atomic l.render.toList := by
  cases l with
  | string s => exact Text.atomic_quote s
  | number digits => exact Text.atomic_of_bare (hnumber digits rfl)
  | bool b => cases b <;> decide
  | null => decide

theorem Section.atomic_lookupText (sec : Section) (name : String) :
    Text.Atomic (sec.lookupText name).toList := by
  have hlist : (sec.lookupText name).toList =
      "Components".toList ++ ('[' :: ((Text.quote sec.key).toList ++ [']']) ++
        ('[' :: ((Text.quote name).toList ++ [']']))) := by
    have hhead : "Components[".toList = "Components".toList ++ ['['] := by decide
    have hmiddle : "][".toList = [']', '['] := by decide
    have htail : "]".toList = [']'] := by decide
    simp only [lookupText, String.toList_append, hhead, hmiddle, htail]
    simp
  rw [hlist]
  have hbracket : Text.closingOf? '[' = some ']' := rfl
  have hkey := Text.Atomic.bracket hbracket (Text.atomic_quote sec.key).balanced
  have hname := Text.Atomic.bracket hbracket (Text.atomic_quote name).balanced
  exact (by decide : Text.Atomic "Components".toList).append (hkey.append hname)

namespace KeyType

/-- A beginning of keys can be written in a template literal. -/
def Printable (key : KeyType) : Prop :=
  ∀ text, key = .startingWith text → '`' ∉ text.toList

theorem render_startingWith_toList (text : String) :
    (startingWith text).render.toList =
      '`' :: ((text.toList ++ "$\x7bstring\x7d".toList) ++ ['`']) := by
  have hhead : "`".toList = ['`'] := by decide
  have htail : "$\x7bstring\x7d`".toList = "$\x7bstring\x7d".toList ++ ['`'] := by decide
  simp only [render, String.toList_append, hhead, htail]
  simp

theorem atomic_render {key : KeyType} (h : key.Printable) : Text.Atomic key.render.toList := by
  cases key with
  | any => decide
  | exactly text => exact Text.atomic_quote text
  | startingWith text =>
    rw [render_startingWith_toList]
    apply Text.atomic_template
    rw [List.mem_append, not_or]
    exact ⟨h text rfl, by decide⟩
  | numeric => decide

end KeyType

namespace TypeExpr

/-- The text of the type is atomic. -/
def Atomic (type : TypeExpr) : Prop := Text.Atomic type.render.toList

instance (type : TypeExpr) : Decidable type.Atomic := inferInstanceAs (Decidable (Text.Atomic _))

/-! ### Equations of the text -/

theorem render_array (item : TypeExpr) : (array item).render = item.render ++ "[]" := rfl

theorem render_union (parts : List TypeExpr) :
    (union parts).render = Text.parenthesized " | " (renderAll parts) := rfl

theorem render_intersection (parts : List TypeExpr) :
    (intersection parts).render = Text.parenthesized " & " (renderAll parts) := rfl

theorem render_object (fields : List (Field TypeExpr)) :
    (object fields).render = Field.objectText (renderFields fields) := rfl

theorem render_record (value : TypeExpr) :
    (record value).render = "Record<string, " ++ value.render ++ ">" := rfl

theorem render_mapped (keys : List KeyType) (value : TypeExpr) :
    (mapped keys value).render =
      "\x7b [K in " ++ keysText keys ++ "]?: " ++ value.render ++ " \x7d" := rfl

theorem renderAll_eq_map (parts : List TypeExpr) : renderAll parts = parts.map render := by
  induction parts with
  | nil => rfl
  | cons part rest ih =>
    show part.render :: renderAll rest = part.render :: rest.map render
    rw [ih]

theorem renderFields_eq_map (fields : List (Field TypeExpr)) :
    renderFields fields = fields.map fun f => ⟨f.name, f.type.render, f.optional⟩ := by
  induction fields with
  | nil => rfl
  | cons f rest ih =>
    obtain ⟨name, type, optional⟩ := f
    show Field.mk name type.render optional :: renderFields rest = _
    rw [ih, List.map_cons]

/-! ### Unions of texts -/

theorem render_unionOf (parts : List TypeExpr) :
    (unionOf parts).render = Text.unionText "unknown" (parts.map render) := by
  match parts with
  | [] => rfl
  | [_] => rfl
  | first :: second :: more =>
    show (union (first :: second :: more)).render = _
    rw [render_union, renderAll_eq_map]
    rfl

/-- A union of types has the text of the union of their texts, which are all that tells
whether a type is repeated or absorbs the others. -/
theorem render_unionDistinct (members : List TypeExpr) :
    (unionDistinct members).render = Text.distinctUnionText "unknown" (members.map render) := by
  unfold unionDistinct Text.distinctUnionText
  rw [← map_alternatives? render]
  cases alternatives? render "unknown" members with
  | none => rfl
  | some distinct => exact render_unionOf distinct

/-- So do the keys of a mapped type. -/
theorem keysText_unionDistinct (members : List KeyType) :
    keysText (KeyType.unionDistinct members) =
      Text.distinctUnionText "string" (members.map KeyType.render) := by
  unfold KeyType.unionDistinct Text.distinctUnionText
  rw [← map_alternatives? KeyType.render]
  cases alternatives? KeyType.render "string" members with
  | none => rfl
  | some distinct =>
    match distinct with
    | [] => rfl
    | [_] => rfl
    | first :: second :: more => rfl

/-! ### Atomic types -/

theorem atomic_unknown : Atomic unknown := by decide

theorem atomic_never : Atomic never := by decide

theorem atomic_string : Atomic string := by decide

theorem atomic_number : Atomic number := by decide

theorem atomic_boolean : Atomic boolean := by decide

theorem atomic_emptyTuple : Atomic emptyTuple := by decide

theorem atomic_component (sec : Section) (name : String) : Atomic (component sec name) :=
  sec.atomic_lookupText name

theorem atomic_enumRef {name : String} (h : ∀ c ∈ name.toList, Text.isBare c = true) :
    Atomic (enumRef name) :=
  Text.atomic_of_bare h

theorem atomic_array {item : TypeExpr} (h : Atomic item) : Atomic (array item) := by
  rw [Atomic, render_array, String.toList_append]
  exact Text.Atomic.append h (by decide)

theorem balanced_of_mem_renderAll {parts : List TypeExpr} (h : ∀ part ∈ parts, Atomic part)
    {text : String} (htext : text ∈ renderAll parts) : Balanced text.toList := by
  rw [renderAll_eq_map] at htext
  obtain ⟨part, hpart, rfl⟩ := List.mem_map.mp htext
  exact (h part hpart).balanced

theorem atomic_union {parts : List TypeExpr} (h : ∀ part ∈ parts, Atomic part) :
    Atomic (union parts) := by
  rw [Atomic, render_union]
  exact Text.atomic_parenthesized (by decide) fun _ => balanced_of_mem_renderAll h

theorem atomic_intersection {parts : List TypeExpr} (h : ∀ part ∈ parts, Atomic part) :
    Atomic (intersection parts) := by
  rw [Atomic, render_intersection]
  exact Text.atomic_parenthesized (by decide) fun _ => balanced_of_mem_renderAll h

theorem atomic_object {fields : List (Field TypeExpr)} (h : ∀ f ∈ fields, f.type.Atomic) :
    Atomic (object fields) := by
  rw [Atomic, render_object, Field.objectText]
  split
  · decide
  · have hinner : Balanced (String.join ((renderFields fields).map fun f =>
        Text.field "  " f.key f.type)).toList := by
      apply Text.balanced_join
      intro piece hpiece
      rw [renderFields_eq_map, List.map_map] at hpiece
      obtain ⟨f, hf, rfl⟩ := List.mem_map.mp hpiece
      refine Text.balanced_field (by decide) ?_ (h f hf).balanced
      rw [Field.key, String.toList_append]
      refine (Text.atomic_propertyKey f.name).balanced.append ?_
      split <;> decide
    have hlist : ∀ body : String, ("\x7b\n" ++ body ++ "\x7d").toList =
        '\x7b' :: (('\n' :: body.toList) ++ ['\x7d']) := by
      intro body
      rw [String.toList_append, String.toList_append]
      rfl
    rw [hlist]
    apply Text.Atomic.bracket rfl
    exact (by decide : Balanced ['\n']).append hinner

theorem atomic_record {value : TypeExpr} (h : Atomic value) : Atomic (record value) := by
  have hlist : (record value).render.toList =
      "Record".toList ++ '<' :: (("string, ".toList ++ value.render.toList) ++ ['>']) := by
    rw [render_record, String.toList_append, String.toList_append]
    rfl
  rw [Atomic, hlist]
  have hinner : Balanced ("string, ".toList ++ value.render.toList) :=
    (by decide : Balanced "string, ".toList).append h.balanced
  exact (by decide : Text.Atomic "Record".toList).append (Text.Atomic.bracket rfl hinner)

theorem balanced_keysText {keys : List KeyType} (h : ∀ key ∈ keys, key.Printable) :
    Balanced (keysText keys).toList := by
  unfold keysText
  split
  · exact (KeyType.atomic_render (h _ (List.mem_singleton.mpr rfl))).balanced
  · refine (Text.atomic_parenthesized (by decide) fun text htext => ?_).balanced
    obtain ⟨key, hkey, rfl⟩ := List.mem_map.mp htext
    exact (KeyType.atomic_render (h key hkey)).balanced

theorem atomic_mapped {keys : List KeyType} {value : TypeExpr}
    (hkeys : ∀ key ∈ keys, key.Printable) (hvalue : Atomic value) :
    Atomic (mapped keys value) := by
  have hlist : (mapped keys value).render.toList =
      '\x7b' :: ((' ' :: (('[' :: (("K in ".toList ++ (keysText keys).toList) ++ [']'])) ++
        ("?: ".toList ++ (value.render.toList ++ [' '])))) ++ ['\x7d']) := by
    have hhead : "\x7b [K in ".toList = '\x7b' :: ' ' :: '[' :: "K in ".toList := by decide
    have hmiddle : "]?: ".toList = ']' :: "?: ".toList := by decide
    have htail : " \x7d".toList = [' ', '\x7d'] := by decide
    simp only [render_mapped, String.toList_append, hhead, hmiddle, htail, List.cons_append,
      List.nil_append, List.append_assoc]
  rw [Atomic, hlist]
  have hindex : Balanced ('[' :: (("K in ".toList ++ (keysText keys).toList) ++ [']'])) := by
    apply (Text.Atomic.bracket rfl _).balanced
    exact (by decide : Balanced "K in ".toList).append (balanced_keysText hkeys)
  apply Text.Atomic.bracket rfl
  apply (by decide : Balanced [' ']).append
  apply hindex.append
  exact (by decide : Balanced "?: ".toList).append (hvalue.balanced.append (by decide))

end TypeExpr

end OpenApiTypings
