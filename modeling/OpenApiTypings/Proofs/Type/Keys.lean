import OpenApiTypings.Proofs.Type.Composed

/-!
# Keys of object types

The text of an object type declares a key for each of its fields, so a name that two fields
share is declared twice.  Composing keeps the keys of objects distinct.
-/

namespace OpenApiTypings.TypeExpr

/-- The type stands somewhere in another one. -/
inductive Inside (part : TypeExpr) : TypeExpr → Prop
  | refl : Inside part part
  | array {item} (h : Inside part item) : Inside part (.array item)
  | union {parts type} (htype : type ∈ parts) (h : Inside part type) : Inside part (.union parts)
  | intersection {parts type} (htype : type ∈ parts) (h : Inside part type) :
      Inside part (.intersection parts)
  | object {fields : List (Field TypeExpr)} {f} (hf : f ∈ fields) (h : Inside part f.type) :
      Inside part (.object fields)
  | record {value} (h : Inside part value) : Inside part (.record value)
  | mapped {keys value} (h : Inside part value) : Inside part (.mapped keys value)

/-- No object type in the type has two fields of one name. -/
def DistinctKeys (type : TypeExpr) : Prop :=
  ∀ fields, (TypeExpr.object fields).Inside type → (fields.map Field.name).Nodup

theorem composes_distinctKeys : ComposesWhere True DistinctKeys where
  unknown := nofun
  never := nofun
  string := nofun
  number := nofun
  boolean := nofun
  literal _ := nofun
  emptyTuple := nofun
  array h fields hinside := by
    cases hinside with
    | array hitem => exact h fields hitem
  union h fields hinside := by
    cases hinside with
    | union htype hpart => exact h _ htype fields hpart
  intersection h fields hinside := by
    cases hinside with
    | intersection htype hpart => exact h _ htype fields hpart
  object hnames h fields hinside := by
    cases hinside with
    | refl => exact hnames trivial
    | object hf hpart => exact h _ hf fields hpart
  record h fields hinside := by
    cases hinside with
    | record hvalue => exact h fields hvalue
  mapped _ h fields hinside := by
    cases hinside with
    | mapped hvalue => exact h fields hvalue

end OpenApiTypings.TypeExpr
