import OpenApiTypings.Number.Basic
import OpenApiTypings.Table

/-!
# JSON values

The tree that both source formats are read into.  An object is a list of entries;
the readers give it sorted by key and without repeated keys (`Json.ofEntries`).
-/

namespace OpenApiTypings

inductive Json where
  | null
  | bool (b : Bool)
  | number (n : Number)
  | string (s : String)
  | array (items : List Json)
  | object (fields : List (String × Json))
  deriving Inhabited, Repr

namespace Json

/-- The object of a list of entries, the last entry of a key winning. -/
def ofEntries (entries : List (String × Json)) : Json :=
  .object (Table.sorted entries)

def isNull : Json → Bool
  | .null => true
  | _ => false

def string? : Json → Option String
  | .string s => some s
  | _ => none

def bool? : Json → Option Bool
  | .bool b => some b
  | _ => none

def array? : Json → Option (List Json)
  | .array items => some items
  | _ => none

def object? : Json → Option (Table Json)
  | .object fields => some fields
  | _ => none

end Json

end OpenApiTypings
