import OpenApiTypings.Json.Basic
import OpenApiTypings.Text.Unseen

/-!
# Texts of JSON values

A JSON value is written in full on one line, without blanks: strings are escaped as
literals of the declarations are, which is valid JSON, and numbers keep their kind.  A
message only names the value it found, a list or an object by its kind alone.
-/

namespace OpenApiTypings.Json

mutual

def render : Json → String
  | .null => "null"
  | .bool b => if b then "true" else "false"
  | .number n => n.text
  | .string s => Text.quote s
  | .array items => "[" ++ String.intercalate "," (renderItems items) ++ "]"
  | .object fields =>
      "\x7b" ++ String.intercalate "," (renderFields fields) ++ "\x7d"

def renderItems : List Json → List String
  | [] => []
  | item :: rest => render item :: renderItems rest

def renderFields : List (String × Json) → List String
  | [] => []
  | (key, value) :: rest =>
      (Text.quote key ++ ":" ++ render value) :: renderFields rest

end

/-- How a message names the value it found. -/
def kindText : Json → String
  | .null => "null"
  | .bool b => "boolean `" ++ (if b then "true" else "false") ++ "`"
  | .number (.integer n) => "integer `" ++ toString n ++ "`"
  | .number (.double x) => "floating point `" ++ DecimalLayout.text.render x ++ "`"
  | .string s => "string " ++ Text.shown s
  | .array _ => "sequence"
  | .object _ => "map"

end OpenApiTypings.Json
