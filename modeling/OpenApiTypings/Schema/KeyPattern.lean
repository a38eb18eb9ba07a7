import OpenApiTypings.Text.Lines
import OpenApiTypings.Type.Basic

/-!
# Keys admitted by a pattern

The names of pattern properties are given by regular expressions.  A few shapes
have an exact counterpart among key types: a text anchored at both ends is one key,
a text anchored at its beginning is a beginning of keys, and two spellings of "only
digits" are the numeric keys.  Every other expression admits keys that no key type
describes, and is widened to all keys.
-/

namespace OpenApiTypings.Schema

/-- The expressions for one or more digits. -/
def digitPatterns : List String := ["^[0-9]+$", "^\\d+$"]

/-- Characters with a meaning of their own in a regular expression, and the
character that would end a template literal. -/
def patternSpecials : List Char :=
  "`[]()\x7b\x7d|+*?.\\^$".toList

def keyTypeOfPattern (pattern : String) : KeyType :=
  if digitPatterns.contains pattern then .numeric
  else
    match pattern.toList with
    | '^' :: rest =>
        let (body, anchored) :=
          match Text.dropTail? ['$'] rest with
          | some inner => (inner, true)
          | none => (rest, false)
        let (text, continued) :=
          match Text.dropTail? ['.', '*'] body with
          | some inner => (inner, true)
          | none =>
              match Text.dropTail? ['.', '+'] body with
              | some inner => (inner, true)
              | none => (body, false)
        if text.isEmpty || text.any patternSpecials.contains then .any
        else if anchored && !continued then .exactly (String.ofList text)
        else .startingWith (String.ofList text)
    | _ => .any

end OpenApiTypings.Schema
