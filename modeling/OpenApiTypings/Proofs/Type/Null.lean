import OpenApiTypings.Proofs.Enum.Naming
import OpenApiTypings.Proofs.Number.Literal
import OpenApiTypings.Proofs.Type.Denotation
import OpenApiTypings.Proofs.Type.Render

/-!
# The text of null

Whether a type is that of `null` is asked of the type, while two types of a union are compared
by their texts.  For the types that a schema node is compiled to, both come to the same: no
other one of them reads `null`.
-/

namespace OpenApiTypings

namespace TypeExpr

theorem append_ne_null (front : String) {ending : String} {c : Char}
    (hending : ending.toList.getLast? = some c) (hc : c ≠ 'l') : front ++ ending ≠ "null" := by
  intro h
  have hlast := congrArg (fun text => text.toList.getLast?) h
  rw [String.toList_append, List.getLast?_append, hending] at hlast
  exact hc (Option.some.inj hlast)

/-- The type is put together from other types by brackets. -/
def IsBracketed : TypeExpr → Prop
  | .array _ => True
  | .union _ => True
  | .intersection _ => True
  | .object _ => True
  | .record _ => True
  | .mapped _ _ => True
  | _ => False

theorem IsBracketed.render_ne_null {type : TypeExpr} (h : type.IsBracketed) :
    type.render ≠ "null" := by
  cases type with
  | array item => exact append_ne_null (c := ']') _ (by decide) (by decide)
  | union parts => exact append_ne_null (c := ')') _ (by decide) (by decide)
  | intersection parts => exact append_ne_null (c := ')') _ (by decide) (by decide)
  | object fields =>
    rw [render_object, Field.objectText]
    split
    · decide
    · exact append_ne_null (c := '\x7d') _ (by decide) (by decide)
  | record value => exact append_ne_null (c := '>') _ (by decide) (by decide)
  | mapped keys value => exact append_ne_null (c := '\x7d') _ (by decide) (by decide)
  | _ => exact h.elim

/-- The type reads `null` only if it is that of `null`. -/
def NullIfRead (type : TypeExpr) : Prop := type.render = "null" → type.isNull = true

theorem IsBracketed.nullIfRead {type : TypeExpr} (h : type.IsBracketed) : type.NullIfRead :=
  fun htext => absurd htext h.render_ne_null

theorem nullIfRead_literal {v : Json} {l : Literal} (h : Literal.ofJson? v = some l) :
    (TypeExpr.literal l).NullIfRead := by
  intro htext
  cases v with
  | null =>
    cases h
    rfl
  | bool b =>
    cases h
    revert htext
    cases b <;> decide
  | number n =>
    cases h
    -- the digits of a number do not spell a word
    have hmem : 'n' ∈ n.literal.toList := by
      rw [show n.literal = "null" from htext]
      decide
    have hdecimal := Number.isDecimalChar_of_mem_literal hmem
    rw [IsDecimalChar] at hdecimal
    exact absurd hdecimal (by decide)
  | string s =>
    cases h
    exact absurd htext (append_ne_null (c := '\x22') _ (by decide) (by decide))
  | array items => cases h
  | object fields => cases h

theorem nullIfRead_unionDistinct {parts : List TypeExpr} (h : ∀ part ∈ parts, part.NullIfRead) :
    (unionDistinct parts).NullIfRead := by
  unfold unionDistinct
  cases hdistinct : alternatives? render "unknown" parts with
  | none => exact fun htext => absurd htext (by decide)
  | some distinct =>
    match distinct, hdistinct with
    | [], _ => exact fun htext => absurd htext (by decide)
    | [single], hdistinct =>
      exact h single (mem_of_alternatives? hdistinct (List.mem_singleton.mpr rfl))
    | first :: second :: more, _ => exact IsBracketed.nullIfRead trivial

theorem denotes_null_of_isNull {type : TypeExpr} (h : type.isNull = true)
    (lookups : Section → String → Json → Prop) (registry : Registry) :
    type.Denotes lookups registry .null := by
  unfold isNull at h
  split at h
  · rfl
  · cases h

end TypeExpr

end OpenApiTypings
