import OpenApiTypings.Proofs.Text.Tokens
import OpenApiTypings.Proofs.Type.Composed

/-!
# Literals of types

The literals that a type puts into its text are quoted texts and the templates of key types.
Line breaks are escaped in a quoted text and nowhere else: a template that holds one is written
as it stands.
-/

namespace OpenApiTypings

open Text (Shows OnOneLine shows_of_opensNothing)

/-! ### Literal types and key types -/

namespace Literal

/-- The literals in the text of a literal type. -/
def literals : Literal → List (List Char)
  | .string s => [(Text.quote s).toList]
  | _ => []

theorem shows_render {v : Json} {l : Literal} (h : ofJson? v = some l) :
    Shows l.render l.literals := by
  cases l with
  | string s => exact Text.shows_quote s
  | number digits =>
    cases v with
    | number n =>
      cases h
      exact Text.shows_of_bare fun c hc => (Number.isDecimalChar_of_mem_literal hc).isBare
    | null => cases h
    | bool b => cases h
    | string s => cases h
    | array items => cases h
    | object fields => cases h
  | bool b => exact shows_of_opensNothing (by cases b <;> decide)
  | null => exact shows_of_opensNothing (by decide)

theorem onOneLine_literals (l : Literal) : OnOneLine l.literals := by
  cases l with
  | string s => exact Text.onOneLine_quote s
  | _ => exact Text.onOneLine_nil

end Literal

namespace KeyType

/-- The literals in the text of a key type. -/
def literals : KeyType → List (List Char)
  | .any => []
  | key => [key.render.toList]

/-- The key type is a template with a line break in it. -/
def BreaksLine : KeyType → Prop
  | .startingWith text => '\n' ∈ text.toList
  | _ => False

theorem Printable.shows_render {key : KeyType} (h : key.Printable) :
    Shows key.render key.literals := by
  cases key with
  | any => exact shows_of_opensNothing (by decide)
  | exactly text => exact Text.shows_quote text
  | startingWith text =>
    refine Text.shows_template ?_ (render_startingWith_toList text)
    rw [List.mem_append, not_or]
    exact ⟨h text rfl, by decide⟩
  | numeric =>
    have htext : numeric.render.toList = '`' :: ("$\x7bnumber\x7d".toList ++ ['`']) := by decide
    exact Text.shows_template (by decide) htext

theorem onOneLine_literals_iff (key : KeyType) : OnOneLine key.literals ↔ ¬ key.BreaksLine := by
  cases key with
  | any => exact iff_of_true Text.onOneLine_nil nofun
  | exactly text => exact iff_of_true (Text.onOneLine_quote text) nofun
  | startingWith text =>
    have hrest : '\n' ∈ (startingWith text).render.toList ↔ '\n' ∈ text.toList := by
      rw [render_startingWith_toList]
      simp
    rw [BreaksLine, ← hrest]
    exact List.forall_mem_singleton
  | numeric => exact iff_of_true (by decide) nofun

end KeyType

/-! ### Types -/

namespace TypeExpr

mutual

/-- The literals that a type puts into its text, in order. -/
def literals : TypeExpr → List (List Char)
  | .unknown => []
  | .never => []
  | .string => []
  | .number => []
  | .boolean => []
  | .literal l => l.literals
  | .enumRef _ => []
  | .component sec name => [(Text.quote sec.key).toList, (Text.quote name).toList]
  | .array item => literals item
  | .emptyTuple => []
  | .union parts => literalsAll parts
  | .intersection parts => literalsAll parts
  | .object fields => literalsFields fields
  | .record value => literals value
  | .mapped keys value => keys.flatMap KeyType.literals ++ literals value

/-- The literals of several types. -/
def literalsAll : List TypeExpr → List (List Char)
  | [] => []
  | part :: rest => literals part ++ literalsAll rest

/-- The literals of fields: those of the key before those of the type. -/
def literalsFields : List (Field TypeExpr) → List (List Char)
  | [] => []
  | ⟨name, type, _⟩ :: rest => (Text.keyLiterals name ++ literals type) ++ literalsFields rest

end

theorem literalsAll_eq_flatMap (parts : List TypeExpr) :
    literalsAll parts = parts.flatMap literals := by
  induction parts with
  | nil => rfl
  | cons part rest ih =>
    rw [List.flatMap_cons, ← ih]
    rfl

theorem literalsFields_eq_flatMap (fields : List (Field TypeExpr)) :
    literalsFields fields =
      fields.flatMap fun f => Text.keyLiterals f.name ++ f.type.literals := by
  induction fields with
  | nil => rfl
  | cons f rest ih =>
    rw [List.flatMap_cons, ← ih]
    rfl

/-- The literal is a quoted text, or that of a key type which is allowed. -/
inductive WritesLiteral (allowed : KeyType → Prop) : List Char → Prop
  | quoted (s : String) : WritesLiteral allowed (Text.quote s).toList
  | key {key token} (hkey : allowed key) (htoken : token ∈ key.literals) :
      WritesLiteral allowed token

/-- A literal that is broken over two lines is the template of a key type. -/
theorem WritesLiteral.exists_template {allowed : KeyType → Prop} {token : List Char}
    (h : WritesLiteral allowed token) (hbreak : '\n' ∈ token) :
    ∃ text, allowed (.startingWith text) ∧ '\n' ∈ text.toList ∧
      token = (KeyType.startingWith text).render.toList := by
  cases h with
  | quoted s => exact absurd hbreak (Text.onOneLine_quote s _ (List.mem_singleton.mpr rfl))
  | @key key _ hkey htoken =>
    have hbreaks : key.BreaksLine := by
      by_contra hline
      exact key.onOneLine_literals_iff.mpr hline token htoken hbreak
    cases key with
    | startingWith text => exact ⟨text, hkey, hbreaks, List.mem_singleton.mp htoken⟩
    | _ => exact hbreaks.elim

theorem onOneLine_of_writesLiteral {allowed : KeyType → Prop}
    (hallowed : ∀ key, allowed key → ¬ key.BreaksLine) {tokens : List (List Char)}
    (h : ∀ token ∈ tokens, WritesLiteral allowed token) : OnOneLine tokens := by
  intro token htoken hbreak
  obtain ⟨text, hkey, hline, -⟩ := (h token htoken).exists_template hbreak
  exact hallowed _ hkey hline

theorem writesLiteral_keyLiterals {allowed : KeyType → Prop} {name : String} :
    ∀ token ∈ Text.keyLiterals name, WritesLiteral allowed token := by
  intro token htoken
  unfold Text.keyLiterals at htoken
  split at htoken
  · cases htoken
  · obtain rfl := List.mem_singleton.mp htoken
    exact .quoted name

theorem writesLiteral_literalsAll {allowed : KeyType → Prop} {parts : List TypeExpr}
    (h : ∀ part ∈ parts, ∀ token ∈ part.literals, WritesLiteral allowed token) :
    ∀ token ∈ literalsAll parts, WritesLiteral allowed token := by
  intro token htoken
  rw [literalsAll_eq_flatMap] at htoken
  obtain ⟨part, hpart, htoken⟩ := List.mem_flatMap.mp htoken
  exact h part hpart token htoken

theorem writesLiteral_component {allowed : KeyType → Prop} (sec : Section) (name : String) :
    ∀ token ∈ (component sec name).literals, WritesLiteral allowed token := by
  intro token htoken
  rcases List.mem_cons.mp htoken with rfl | hrest
  · exact .quoted _
  · obtain rfl := List.mem_singleton.mp hrest
    exact .quoted name

/-- Every literal of a type comes from a text or from a key type in it. -/
theorem composes_writesLiteral (allowed : KeyType → Prop) :
    ComposesOver allowed fun type => ∀ token ∈ type.literals, WritesLiteral allowed token where
  unknown := nofun
  never := nofun
  string := nofun
  number := nofun
  boolean := nofun
  literal {_ l} _ token htoken := by
    cases l with
    | string s =>
      obtain rfl := List.mem_singleton.mp htoken
      exact .quoted s
    | _ => cases htoken
  emptyTuple := nofun
  array h := h
  union h := writesLiteral_literalsAll h
  intersection h := writesLiteral_literalsAll h
  object {fields} _ h token htoken := by
    rw [literals, literalsFields_eq_flatMap] at htoken
    obtain ⟨f, hf, htoken⟩ := List.mem_flatMap.mp htoken
    rcases List.mem_append.mp htoken with hname | htype
    · exact writesLiteral_keyLiterals token hname
    · exact h f hf token htype
  record h := h
  mapped hkeys h token htoken := by
    rcases List.mem_append.mp htoken with hkey | hvalue
    · obtain ⟨key, hmem, htoken⟩ := List.mem_flatMap.mp hkey
      exact .key (hkeys key hmem) htoken
    · exact h token hvalue

end TypeExpr

/-! ### Texts -/

theorem Field.shows_key (field : Field τ) : Shows field.key (Text.keyLiterals field.name) := by
  have hmark : Text.opensNothing (if field.optional then "?" else "") = true := by
    split <;> decide
  exact (Text.shows_propertyKey field.name).followed hmark

theorem Section.shows_lookupText (sec : Section) (name : String) :
    Shows (sec.lookupText name) [(Text.quote sec.key).toList, (Text.quote name).toList] :=
  (Shows.between (by decide) (Text.shows_quote sec.key) (by decide)).append
    (Text.shows_quote name) |>.followed (by decide)

namespace TypeExpr

/-- The text of the type is meant to hold the literals of the type. -/
def Legible (type : TypeExpr) : Prop := Shows type.render type.literals

theorem legible_joined {separator : String} (hseparator : Text.opensNothing separator = true)
    {parts : List TypeExpr} (h : ∀ part ∈ parts, part.Legible) :
    Shows (Text.parenthesized separator (renderAll parts)) (literalsAll parts) := by
  rw [renderAll_eq_map, literalsAll_eq_flatMap]
  exact (Text.shows_intercalate hseparator h).between (by decide) (by decide)

theorem legible_object {fields : List (Field TypeExpr)} (h : ∀ f ∈ fields, f.type.Legible) :
    (object fields).Legible := by
  show Shows (Field.objectText (renderFields fields)) (literalsFields fields)
  rw [literalsFields_eq_flatMap, Field.objectText]
  split
  · rename_i hempty
    obtain rfl : fields = [] := by
      rw [renderFields_eq_map, List.isEmpty_map] at hempty
      exact List.isEmpty_iff.mp hempty
    exact shows_of_opensNothing (by decide)
  · rw [renderFields_eq_map, List.map_map]
    refine (Text.shows_join fun f hf => ?_).between (by decide) (by decide)
    exact Shows.field (by decide) (Field.shows_key _) (h f hf)

theorem legible_keysText {keys : List KeyType} (h : ∀ key ∈ keys, key.Printable) :
    Shows (keysText keys) (keys.flatMap KeyType.literals) := by
  unfold keysText
  split
  · rename_i key
    rw [List.flatMap_singleton]
    exact (h key List.mem_cons_self).shows_render
  · exact (Text.shows_intercalate (by decide) fun key hkey => (h key hkey).shows_render).between
      (by decide) (by decide)

theorem composes_legible : Composes Legible where
  unknown := shows_of_opensNothing (by decide)
  never := shows_of_opensNothing (by decide)
  string := shows_of_opensNothing (by decide)
  number := shows_of_opensNothing (by decide)
  boolean := shows_of_opensNothing (by decide)
  literal := Literal.shows_render
  emptyTuple := shows_of_opensNothing (by decide)
  array h := h.followed (by decide)
  union := legible_joined (by decide)
  intersection := legible_joined (by decide)
  object _ := legible_object
  record h := h.between (by decide) (by decide)
  mapped hkeys h :=
    (((legible_keysText hkeys).between (by decide) (by decide)).append h).followed (by decide)

end TypeExpr

end OpenApiTypings
