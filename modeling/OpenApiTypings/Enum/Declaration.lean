import OpenApiTypings.Json.Basic
import OpenApiTypings.Text.Quoted
import OpenApiTypings.Text.Words

/-!
# Enum declarations

A schema that admits only texts, or only numbers, from a list becomes an exported
constant enum.  Each value gives a member: the literal itself, under an identifier
made from it.  Two values that would share an identifier are told apart by a number,
and the declaration takes its name from the hint of the schema.
-/

namespace OpenApiTypings

/-- A member of an enum: its identifier and the text of its value. -/
structure EnumMember where
  name : String
  value : String
  deriving DecidableEq, Repr

structure EnumDecl where
  name : String
  members : List EnumMember
  deriving DecidableEq, Repr

def EnumDecl.render (decl : EnumDecl) : String :=
  "export const enum " ++ decl.name ++ " \x7b\n" ++
    String.join (decl.members.map fun m => "  " ++ m.name ++ " = " ++ m.value ++ ",\n") ++
    "\x7d\n\n"

namespace EnumMember

/-! ### Identifiers of members -/

/-- The identifier stem of a text: upper-case letters and digits, with `_` for
everything else and in front of a leading digit. -/
def stemOfString (s : String) : String :=
  let keep (c : Char) : Char :=
    if c.isAlpha then c.toUpper else if c.isDigit then c else '_'
  match s.toList with
  | [] => "Empty"
  | c :: rest =>
      let body := String.ofList ((c :: rest).map keep)
      if c.isDigit then "_" ++ body else body

/-- Replaces the sign and the point of a number's text. -/
def spellNumber (minus : String) (text : String) : String :=
  String.ofList (text.toList.flatMap fun c =>
    if c = '-' then minus.toList else if c = '.' then ['_'] else [c])

def stemOfNumber (text : String) : String :=
  "VALUE_" ++ spellNumber "NEG_" text

/-- The kind of values an enum holds; the two are never mixed. -/
inductive Kind where
  | text
  | number
  deriving DecidableEq, Repr

/-- Kind, identifier stem and value text of one listed value. -/
def seedOf? : Json → Option (Kind × EnumMember)
  | .string s => some (.text, ⟨stemOfString s, Text.quote s⟩)
  | .number n => some (.number, ⟨stemOfNumber n.literal, n.literal⟩)
  | _ => none

/-- The stem itself, or a fixed one when it is no identifier. -/
def identifierStem (stem : String) : String :=
  if Text.isIdentifier stem then stem else "Value"

/-- The stem with the number of times it has occurred, from the second time on. -/
def numberedStem (stem : String) (occurrence : Nat) : String :=
  if occurrence ≤ 1 then stem else stem ++ "_" ++ toString occurrence

/-- Gives each seed its identifier, counting how often each stem came before. -/
def nameAll (before : List String) : List EnumMember → List EnumMember
  | [] => []
  | seed :: rest =>
      let stem := identifierStem seed.name
      ⟨numberedStem stem (before.count stem + 1), seed.value⟩ ::
        nameAll (stem :: before) rest

/-- The members for a list of values: `none` when the list is empty, mixes texts
with numbers, or holds anything else. -/
def ofValues? (values : List Json) : Option (List EnumMember) :=
  match values.mapM seedOf? with
  | none => none
  | some [] => none
  | some ((kind, seed) :: rest) =>
      if rest.all (fun s => s.1 = kind) then
        some (nameAll [] (seed :: rest.map Prod.snd))
      else none

end EnumMember

namespace EnumDecl

/-! ### Names of declarations -/

def valueSuffix : List Json → String
  | [.string s] => Text.pascalCase s
  | [.number n] => "Value" ++ EnumMember.spellNumber "Neg" n.literal
  | _ => ""

def endsInEnum (s : String) : Bool :=
  "Enum".toList.isSuffixOf s.toList

/-- The name an enum takes when it is free: the words of the hint, the value when
there is only one, and `Enum`, with `_` in front of a leading digit. -/
def baseName (hint : String) (values : List Json) : String :=
  let words := Text.pascalCase hint
  let named := (if words.isEmpty then "Enum" else words) ++ valueSuffix values
  let ended := if endsInEnum named then named else named ++ "Enum"
  match ended.toList with
  | c :: _ => if c.isDigit then "_" ++ ended else ended
  | [] => ended

end EnumDecl

end OpenApiTypings
