/-!
# Faults of YAML sources

Why a text is no YAML document that can be read: its tokens, their structure, its
anchors, its mappings or its scalars are at fault.
-/

namespace OpenApiTypings.Yaml

inductive Fault where
  /-- A character that no document may contain. -/
  | forbiddenCharacter
  /-- Text that forms no token where it stands. -/
  | badToken
  /-- Tokens that form no document. -/
  | badStructure
  /-- A tag whose handle no directive declares. -/
  | undefinedTagHandle
  /-- An alias without an anchor before it. -/
  | unknownAnchor
  /-- A second document in the source. -/
  | severalDocuments
  /-- A key that occurs twice in one mapping. -/
  | duplicateKey
  /-- Collections nested too deep, as by an alias inside its own anchor. -/
  | tooDeep
  /-- Aliases that repeat too much. -/
  | tooRepetitive
  /-- A scalar that does not have the form its tag asks for. -/
  | badScalar
  /-- An integer beyond 64 bits. -/
  | integerOutOfRange
  deriving DecidableEq, Repr

def Fault.message : Fault → String
  | .forbiddenCharacter => "control characters are not allowed"
  | .badToken => "found text that forms no token"
  | .badStructure => "found tokens that form no document"
  | .undefinedTagHandle => "found undefined tag handle"
  | .unknownAnchor => "unknown anchor"
  | .severalDocuments => "more than one document"
  | .duplicateKey => "duplicate entry in a mapping"
  | .tooDeep => "recursion limit exceeded"
  | .tooRepetitive => "repetition limit exceeded"
  | .badScalar => "invalid value for the tag"
  | .integerOutOfRange => "integer out of range"

/-- Why a mapping is no object of JSON. -/
inductive KeyFault where
  /-- A key that has no text. -/
  | notText
  /-- A key that is an infinite number or none. -/
  | notFinite
  deriving DecidableEq, Repr

def KeyFault.message : KeyFault → String
  | .notText => "key must be a string"
  | .notFinite => "float key must be finite (got NaN or +/-inf)"

end OpenApiTypings.Yaml
