import OpenApiTypings.Document.Section
import OpenApiTypings.Json.Basic
import OpenApiTypings.Text.Lines

/-!
# Type expressions of the declarations

A schema is compiled to a *type expression*, and only a type expression is turned
into text.  The text is atomic: unions and intersections stand in parentheses, so a
caller may put `[]` behind it or join it with `|` and `&` without rebinding
anything.

Where two types are compared, for instance to leave a repeated member out of a
union, it is their texts that are compared.
-/

namespace OpenApiTypings

/-! ### Literals -/

/-- A literal type.  A number is kept as it is written. -/
inductive Literal where
  | string (s : String)
  | number (digits : String)
  | bool (b : Bool)
  | null
  deriving DecidableEq, Repr

namespace Literal

def ofJson? : Json → Option Literal
  | .null => some .null
  | .bool b => some (.bool b)
  | .number n => some (.number n.literal)
  | .string s => some (.string s)
  | .array _ => none
  | .object _ => none

def render : Literal → String
  | .string s => Text.quote s
  | .number digits => digits
  | .bool b => if b then "true" else "false"
  | .null => "null"

end Literal

/-! ### Keys of mapped types -/

/-- The keys a pattern admits: all texts, one text, the texts with a given
beginning, or the texts of numbers. -/
inductive KeyType where
  | any
  | exactly (text : String)
  | startingWith (text : String)
  | numeric
  deriving DecidableEq, Repr

namespace KeyType

def render : KeyType → String
  | .any => "string"
  | .exactly text => Text.quote text
  | .startingWith text => "`" ++ text ++ "$\x7bstring\x7d`"
  | .numeric => "`$\x7bnumber\x7d`"

end KeyType

/-! ### Fields -/

structure Field (τ : Type) where
  name : String
  type : τ
  optional : Bool
  deriving DecidableEq, Repr

namespace Field

def required (name : String) (type : τ) : Field τ := ⟨name, type, false⟩

def possible (name : String) (type : τ) : Field τ := ⟨name, type, true⟩

def requiredIf (isRequired : Bool) (name : String) (type : τ) : Field τ :=
  ⟨name, type, !isRequired⟩

def key (field : Field τ) : String :=
  Text.propertyKey field.name ++ (if field.optional then "?" else "")

/-- Puts a field in front of the first one whose name is not smaller. -/
def insertByName (field : Field τ) : List (Field τ) → List (Field τ)
  | [] => [field]
  | other :: rest =>
      if other.name < field.name then other :: insertByName field rest
      else field :: other :: rest

/-- The fields in the order of their names; equal names keep their order. -/
def sortByName (fields : List (Field τ)) : List (Field τ) :=
  fields.foldr insertByName []

def objectText (fields : List (Field String)) : String :=
  if fields.isEmpty then "\x7b\x7d"
  else
    "\x7b\n" ++ String.join (fields.map fun f => Text.field "  " f.key f.type) ++ "\x7d"

end Field

/-! ### Types -/

inductive TypeExpr where
  /-- Every value. -/
  | unknown
  /-- No value. -/
  | never
  | string
  | number
  | boolean
  | literal (l : Literal)
  /-- A declared enum. -/
  | enumRef (name : String)
  /-- A component, looked up in `Components`. -/
  | component (sec : Section) (name : String)
  | array (item : TypeExpr)
  /-- The empty tuple. -/
  | emptyTuple
  | union (parts : List TypeExpr)
  | intersection (parts : List TypeExpr)
  /-- An object type with its fields in the order they are written. -/
  | object (fields : List (Field TypeExpr))
  /-- An object with any keys, all of whose values have the type. -/
  | record (value : TypeExpr)
  /-- An object that may have the keys of a key type, with values of the type. -/
  | mapped (keys : List KeyType) (value : TypeExpr)

/-- Texts joined so that nothing around them can rebind one of them. -/
def Text.parenthesized (separator : String) (parts : List String) : String :=
  "(" ++ String.intercalate separator parts ++ ")"

namespace TypeExpr

instance : Inhabited TypeExpr := ⟨.unknown⟩

def null : TypeExpr := .literal .null

def isNull : TypeExpr → Bool
  | .literal .null => true
  | _ => false

/-- The keys of a mapped type: one alone, several in parentheses. -/
def keysText : List KeyType → String
  | [key] => key.render
  | keys => Text.parenthesized " | " (keys.map KeyType.render)

mutual

def render : TypeExpr → String
  | .unknown => "unknown"
  | .never => "never"
  | .string => "string"
  | .number => "number"
  | .boolean => "boolean"
  | .literal l => l.render
  | .enumRef name => name
  | .component sec name => sec.lookupText name
  | .array item => render item ++ "[]"
  | .emptyTuple => "[]"
  | .union parts => Text.parenthesized " | " (renderAll parts)
  | .intersection parts => Text.parenthesized " & " (renderAll parts)
  | .object fields => Field.objectText (renderFields fields)
  | .record value => "Record<string, " ++ render value ++ ">"
  | .mapped keys value =>
      "\x7b [K in " ++ keysText keys ++ "]?: " ++ render value ++ " \x7d"

def renderAll : List TypeExpr → List String
  | [] => []
  | part :: rest => render part :: renderAll rest

def renderFields : List (Field TypeExpr) → List (Field String)
  | [] => []
  | ⟨name, type, optional⟩ :: rest => ⟨name, render type, optional⟩ :: renderFields rest

end

/-- An object type with its fields in the order of their names. -/
def objectOf (fields : List (Field TypeExpr)) : TypeExpr :=
  .object (Field.sortByName fields)

end TypeExpr

end OpenApiTypings
