import OpenApiTypings.Enum.Registry
import OpenApiTypings.Proofs.Number.Value
import OpenApiTypings.Proofs.Text.Quoted
import OpenApiTypings.Proofs.Type.Union

/-!
# The values of a type

Types are structural: an object type asks for its fields and says nothing of other
keys, a record constrains the values under all keys, and a union or an intersection
admits what some part or every part admits.  Two kinds of type refer to something that
stands elsewhere.  An enum has the values of its declaration in a registry, and what a
component admits is given as `lookups`.
-/

namespace OpenApiTypings

/-! ### Values -/

namespace Json

/-- The value under a key; values other than objects have none. -/
def field? : Json → String → Option Json
  | .object fields, key => Table.get? fields key
  | _, _ => none

/-- The value is an object. -/
def IsObject (v : Json) : Prop := ∃ fields, v = .object fields

end Json

/-- The values of a literal.  A number is any with the value of the written one. -/
def Literal.Denotes : Literal → Json → Prop
  | .string s, v => v = .string s
  | .number digits, v => ∃ n, v = .number n ∧ Text.readDecimal? digits = some n.value
  | .bool b, v => v = .bool b
  | .null, v => v = .null

/-- The values of an enum member, whose value is written as a literal. -/
def EnumMember.Denotes (member : EnumMember) (v : Json) : Prop :=
  (∃ s, v = .string s ∧ Text.readQuoted? member.value = some s) ∨
    ∃ n, v = .number n ∧ Text.readDecimal? member.value = some n.value

/-- The values of the enum that a registry has under a name. -/
def Registry.Denotes (registry : Registry) (name : String) (v : Json) : Prop :=
  ∃ members, registry.members? name = some members ∧ ∃ member ∈ members, member.Denotes v

/-- The keys of a key type. -/
def KeyType.Admits : KeyType → String → Prop
  | .any, _ => True
  | .exactly text, key => key = text
  | .startingWith text, key => text.toList <+: key.toList
  | .numeric, key => ∃ q, Text.readDecimal? key = some q

/-! ### Types -/

namespace TypeExpr

section Denotation

variable (lookups : Section → String → Json → Prop) (registry : Registry)

mutual

/-- The values of a type. -/
def Denotes : TypeExpr → Json → Prop
  | .unknown, _ => True
  | .never, _ => False
  | .string, v => ∃ s, v = .string s
  | .number, v => ∃ n, v = .number n
  | .boolean, v => ∃ b, v = .bool b
  | .literal l, v => l.Denotes v
  | .enumRef name, v => registry.Denotes name v
  | .component sec name, v => lookups sec name v
  | .array item, v => ∃ items, v = .array items ∧ ∀ x ∈ items, Denotes item x
  | .emptyTuple, v => v = .array []
  | .union parts, v => AnyDenotes parts v
  | .intersection parts, v => AllDenote parts v
  | .object fields, v => v.IsObject ∧ FieldsDenote fields v
  | .record value, v => v.IsObject ∧ ∀ key x, v.field? key = some x → Denotes value x
  | .mapped keys value, v =>
      v.IsObject ∧ ∀ key x, v.field? key = some x → (∃ k ∈ keys, k.Admits key) →
        Denotes value x

/-- The values of at least one of several types. -/
def AnyDenotes : List TypeExpr → Json → Prop
  | [], _ => False
  | part :: rest, v => Denotes part v ∨ AnyDenotes rest v

/-- The values of all of several types. -/
def AllDenote : List TypeExpr → Json → Prop
  | [], _ => True
  | part :: rest, v => Denotes part v ∧ AllDenote rest v

/-- The objects that have the fields: a field that must be present is, and one that is
present has a value of its type. -/
def FieldsDenote : List (Field TypeExpr) → Json → Prop
  | [], _ => True
  | ⟨name, type, optional⟩ :: rest, v =>
      (optional = false → ∃ x, v.field? name = some x) ∧
        (∀ x, v.field? name = some x → Denotes type x) ∧ FieldsDenote rest v

end

end Denotation

variable {lookups : Section → String → Json → Prop} {registry : Registry}

theorem anyDenotes_iff {parts : List TypeExpr} {v : Json} :
    AnyDenotes lookups registry parts v ↔ ∃ part ∈ parts, part.Denotes lookups registry v := by
  induction parts with
  | nil => simp [AnyDenotes]
  | cons part rest ih => simp [AnyDenotes, ih]

theorem allDenote_iff {parts : List TypeExpr} {v : Json} :
    AllDenote lookups registry parts v ↔ ∀ part ∈ parts, part.Denotes lookups registry v := by
  induction parts with
  | nil => simp [AllDenote]
  | cons part rest ih => simp [AllDenote, ih]

theorem fieldsDenote_iff {fields : List (Field TypeExpr)} {v : Json} :
    FieldsDenote lookups registry fields v ↔
      ∀ f ∈ fields, (f.optional = false → ∃ x, v.field? f.name = some x) ∧
        ∀ x, v.field? f.name = some x → f.type.Denotes lookups registry x := by
  induction fields with
  | nil => simp [FieldsDenote]
  | cons f rest ih =>
    obtain ⟨name, type, optional⟩ := f
    simp only [FieldsDenote, ih, List.forall_mem_cons, and_assoc]

theorem denotes_union {parts : List TypeExpr} {v : Json} :
    (union parts).Denotes lookups registry v ↔
      ∃ part ∈ parts, part.Denotes lookups registry v := by
  rw [Denotes, anyDenotes_iff]

theorem denotes_intersection {parts : List TypeExpr} {v : Json} :
    (intersection parts).Denotes lookups registry v ↔
      ∀ part ∈ parts, part.Denotes lookups registry v := by
  rw [Denotes, allDenote_iff]

theorem denotes_intersection_pair {first second : TypeExpr} {v : Json} :
    (intersection [first, second]).Denotes lookups registry v ↔
      first.Denotes lookups registry v ∧ second.Denotes lookups registry v := by
  simp [denotes_intersection]

/-- The order of the fields does not matter. -/
theorem denotes_objectOf {fields : List (Field TypeExpr)} {v : Json} :
    (objectOf fields).Denotes lookups registry v ↔
      v.IsObject ∧ ∀ f ∈ fields, (f.optional = false → ∃ x, v.field? f.name = some x) ∧
        ∀ x, v.field? f.name = some x → f.type.Denotes lookups registry x := by
  rw [objectOf, Denotes, fieldsDenote_iff]
  constructor
  · rintro ⟨hobject, hfields⟩
    exact ⟨hobject, fun f hf => hfields f (Field.mem_sortByName.mpr hf)⟩
  · rintro ⟨hobject, hfields⟩
    exact ⟨hobject, fun f hf => hfields f (Field.mem_sortByName.mp hf)⟩

theorem denotes_unionOf {parts : List TypeExpr} {part : TypeExpr} {v : Json}
    (hpart : part ∈ parts) (hv : part.Denotes lookups registry v) :
    (unionOf parts).Denotes lookups registry v := by
  match parts with
  | [] => exact absurd hpart List.not_mem_nil
  | [single] =>
    rw [List.mem_singleton] at hpart
    exact hpart ▸ hv
  | first :: second :: more => exact denotes_union.mpr ⟨part, hpart, hv⟩

/-- A part may be left out of a union for another one with the same text, so the value
has to lie in every part with that text. -/
theorem denotes_unionDistinct {parts : List TypeExpr} {part : TypeExpr} {v : Json}
    (hpart : part ∈ parts) (htext : part.render ≠ "")
    (hv : ∀ other ∈ parts, other.render = part.render → other.Denotes lookups registry v) :
    (unionDistinct parts).Denotes lookups registry v := by
  unfold unionDistinct
  cases hdistinct : alternatives? render "unknown" parts with
  | none => exact trivial
  | some distinct =>
    obtain ⟨kept, hkept, hsame⟩ := exists_mem_alternatives? hdistinct hpart htext
    exact denotes_unionOf hkept (hv kept (mem_of_alternatives? hdistinct hkept) hsame)

end TypeExpr

end OpenApiTypings
