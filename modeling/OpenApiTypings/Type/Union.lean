import OpenApiTypings.Type.Basic

/-!
# Unions without repetition

Several types joined into one: none gives `unknown`, one stands for itself, more
are a union.  Value types and key types each have a member that absorbs all others,
`unknown` among values and `string` among keys.

The rules look at texts alone.  They are stated once over any type of members with
a text, for types as well as for texts themselves.
-/

namespace OpenApiTypings

/-- The members without those whose text has occurred before. -/
def distinctBy (text : α → String) : List α → List α
  | [] => []
  | x :: rest =>
      x :: (distinctBy text rest).filter (fun y => text y ≠ text x)

/-- The distinct members that have a text, or `none` when one of them has the
absorbing text. -/
def alternatives? (text : α → String) (absorbing : String) (members : List α) :
    Option (List α) :=
  if members.any (fun m => text m = absorbing) then none
  else some (distinctBy text (members.filter fun m => text m ≠ ""))

namespace TypeExpr

/-- The union of types as they stand: none is `unknown`, one stands for itself. -/
def unionOf : List TypeExpr → TypeExpr
  | [] => .unknown
  | [single] => single
  | many => .union many

/-- The union of distinct value types; `unknown` absorbs the others. -/
def unionDistinct (members : List TypeExpr) : TypeExpr :=
  match alternatives? render "unknown" members with
  | none => .unknown
  | some distinct => unionOf distinct

/-- The list type of alternatives: the empty tuple when there are none. -/
def listOf : List TypeExpr → TypeExpr
  | [] => .emptyTuple
  | [single] => .array single
  | many => .array (.union many)

end TypeExpr

namespace KeyType

/-- The distinct key types; `any` absorbs the others, and stands alone when there
are none. -/
def unionDistinct (members : List KeyType) : List KeyType :=
  match alternatives? render "string" members with
  | none => [.any]
  | some [] => [.any]
  | some distinct => distinct

end KeyType

namespace Text

/-- The text of a union from the texts of its members. -/
def unionText (empty : String) : List String → String
  | [] => empty
  | [single] => single
  | many => parenthesized " | " many

/-- The text of a union of distinct members, one of which may absorb the others;
`absorbing` is also the text of the union of none. -/
def distinctUnionText (absorbing : String) (members : List String) : String :=
  match alternatives? id absorbing members with
  | none => absorbing
  | some distinct => unionText absorbing distinct

end Text

end OpenApiTypings
