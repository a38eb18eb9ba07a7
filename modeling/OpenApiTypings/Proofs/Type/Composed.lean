import OpenApiTypings.Proofs.Number.Literal
import OpenApiTypings.Proofs.Type.Render
import OpenApiTypings.Proofs.Type.Union

/-!
# Properties of composed types

Types are put together in few ways, and much that is said of a type holds as soon as it
holds of the parts: its text is atomic, or what it mentions is declared.  `Composes` lists
these ways once, and this module goes on to the types that are made by several of them.
What is said of the keys of objects is composed as well, as long as the keys of each object
are distinct, and what is said of the keys of mapped types, as long as these are allowed;
`ComposesWith` leaves room for both.
-/

namespace OpenApiTypings

namespace TypeExpr

/-- The property holds of a type whenever it holds of its parts, the keys of an object are
distinct where that is asked for, and those of a mapped type are allowed.  Enums and look-ups
have no parts; whether it holds of them is another matter. -/
structure ComposesWith (distinct : Prop) (allowed : KeyType → Prop) (P : TypeExpr → Prop) :
    Prop where
  unknown : P .unknown
  never : P .never
  string : P .string
  number : P .number
  boolean : P .boolean
  literal : ∀ {v l}, Literal.ofJson? v = some l → P (.literal l)
  emptyTuple : P .emptyTuple
  array : ∀ {item}, P item → P (.array item)
  union : ∀ {parts}, (∀ part ∈ parts, P part) → P (.union parts)
  intersection : ∀ {parts}, (∀ part ∈ parts, P part) → P (.intersection parts)
  object : ∀ {fields : List (Field TypeExpr)}, (distinct → (fields.map Field.name).Nodup) →
    (∀ f ∈ fields, P f.type) → P (.object fields)
  record : ∀ {value}, P value → P (.record value)
  mapped : ∀ {keys value}, (∀ key ∈ keys, allowed key) → P value → P (.mapped keys value)

/-- The property holds of a type whenever it holds of its parts, and the keys of an object are
distinct where that is asked for. -/
abbrev ComposesWhere (distinct : Prop) : (TypeExpr → Prop) → Prop :=
  ComposesWith distinct KeyType.Printable

/-- The property holds of a type whenever it holds of its parts, and the keys of a mapped type
are allowed. -/
abbrev ComposesOver : (KeyType → Prop) → (TypeExpr → Prop) → Prop := ComposesWith False

/-- The property holds of a type whenever it holds of its parts. -/
abbrev Composes : (TypeExpr → Prop) → Prop := ComposesOver KeyType.Printable

theorem atomic_literal {v : Json} {l : Literal} (h : Literal.ofJson? v = some l) :
    (TypeExpr.literal l).Atomic := by
  apply Literal.atomic_render
  intro digits hdigits c hc
  subst hdigits
  cases v with
  | number n =>
    cases h
    exact (Number.isDecimalChar_of_mem_literal hc).isBare
  | null => cases h
  | bool b => cases h
  | string s => cases h
  | array items => cases h
  | object fields => cases h

theorem composes_atomic : Composes Atomic where
  unknown := atomic_unknown
  never := atomic_never
  string := atomic_string
  number := atomic_number
  boolean := atomic_boolean
  literal := atomic_literal
  emptyTuple := atomic_emptyTuple
  array := atomic_array
  union := atomic_union
  intersection := atomic_intersection
  object _ := atomic_object
  record := atomic_record
  mapped := atomic_mapped

namespace ComposesWith

variable {distinct : Prop} {allowed : KeyType → Prop} {P : TypeExpr → Prop}
  (hP : ComposesWith distinct allowed P)
include hP

theorem null : P TypeExpr.null := hP.literal (v := .null) rfl

theorem text (s : String) : P (.literal (.string s)) := hP.literal (v := .string s) rfl

theorem union_pair {first second : TypeExpr} (hfirst : P first) (hsecond : P second) :
    P (.union [first, second]) := by
  apply hP.union
  exact List.forall_mem_cons.mpr ⟨hfirst, List.forall_mem_singleton.mpr hsecond⟩

theorem intersection_pair {first second : TypeExpr} (hfirst : P first) (hsecond : P second) :
    P (.intersection [first, second]) := by
  apply hP.intersection
  exact List.forall_mem_cons.mpr ⟨hfirst, List.forall_mem_singleton.mpr hsecond⟩

theorem objectOf {fields : List (Field TypeExpr)}
    (hnames : distinct → (fields.map Field.name).Nodup) (h : ∀ f ∈ fields, P f.type) :
    P (objectOf fields) := by
  apply hP.object
  · intro hdistinct
    exact ((Field.perm_sortByName fields).map Field.name).nodup_iff.mpr (hnames hdistinct)
  · exact fun f hf => h f (Field.mem_sortByName.mp hf)

theorem unionOf {parts : List TypeExpr} (h : ∀ part ∈ parts, P part) : P (unionOf parts) := by
  match parts with
  | [] => exact hP.unknown
  | [single] => exact h single (List.mem_singleton.mpr rfl)
  | first :: second :: more => exact hP.union h

theorem unionDistinct {parts : List TypeExpr} (h : ∀ part ∈ parts, P part) :
    P (unionDistinct parts) := by
  unfold TypeExpr.unionDistinct
  cases hdistinct : alternatives? render "unknown" parts with
  | none => exact hP.unknown
  | some distinct =>
    exact hP.unionOf fun part hpart => h part (mem_of_alternatives? hdistinct hpart)

theorem listOf {items : List TypeExpr} (h : ∀ item ∈ items, P item) : P (listOf items) := by
  match items with
  | [] => exact hP.emptyTuple
  | [single] => exact hP.array (h single (List.mem_singleton.mpr rfl))
  | first :: second :: more => exact hP.array (hP.union h)

end ComposesWith

namespace ComposesOver

variable {allowed : KeyType → Prop} {P : TypeExpr → Prop} (hP : ComposesOver allowed P)
  {fields : List (Field TypeExpr)}
include hP

theorem object (h : ∀ f ∈ fields, P f.type) : P (.object fields) :=
  ComposesWith.object hP nofun h

theorem objectOf (h : ∀ f ∈ fields, P f.type) : P (objectOf fields) :=
  ComposesWith.objectOf hP nofun h

end ComposesOver

end TypeExpr

end OpenApiTypings
