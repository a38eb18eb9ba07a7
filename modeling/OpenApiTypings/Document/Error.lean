import OpenApiTypings.Document.Section
import OpenApiTypings.Json.Printer
import OpenApiTypings.Json.Reader
import OpenApiTypings.Yaml.Fault

/-!
# Why a document cannot be compiled

A failure has a root cause and the places around it, from the outermost to the
innermost.  Each cause is data; its wording is given in one place.
-/

namespace OpenApiTypings

/-! ### Shapes -/

/-- What a decoder asks of a value. -/
inductive Expectation where
  | map
  | sequence
  | string
  | boolean
  /-- A record, by the name of its kind. -/
  | record (kind : String)
  /-- A record given as a list of its fields. -/
  | recordItems (kind : String) (count : Nat)
  /-- A list that ends earlier. -/
  | fewerItems
  deriving DecidableEq, Repr

def Expectation.message : Expectation → String
  | .map => "a map"
  | .sequence => "a sequence"
  | .string => "a string"
  | .boolean => "a boolean"
  | .record kind => "struct " ++ kind
  | .recordItems kind count =>
      "struct " ++ kind ++ " with " ++ toString count ++
        (if count = 1 then " element" else " elements")
  | .fewerItems => "fewer elements in array"

/-- Why a JSON tree has not the shape of a document. -/
inductive ShapeError where
  | wrongType (found : Json) (expected : Expectation)
  | wrongLength (length : Nat) (expected : Expectation)
  /-- A value that is neither a reference nor what may stand in its place. -/
  | neitherReferenceNorInline
  deriving Repr

def ShapeError.message : ShapeError → String
  | .wrongType found expected =>
      "invalid type: " ++ found.kindText ++ ", expected " ++ expected.message
  | .wrongLength length expected =>
      "invalid length " ++ toString length ++ ", expected " ++ expected.message
  | .neitherReferenceNorInline => "data did not match any variant of untagged enum RefOr"

/-! ### Causes -/

/-- Why a source gives no tree, or a tree no document. -/
inductive JsonError where
  | malformed (fault : Json.SyntaxError)
  | shape (error : ShapeError)
  /-- A mapping with a key that no JSON object can have. -/
  | key (fault : Yaml.KeyFault)
  deriving Repr

def JsonError.message : JsonError → String
  | .malformed fault => fault.message
  | .shape error => error.message
  | .key fault => fault.message

inductive CompileCause where
  /-- The source is blank, or its document is null. -/
  | noDocument
  /-- A reference that points into no section, or into the wrong one. -/
  | unsupportedReference (pointer : String)
  /-- A reference to an entry that its section does not have. -/
  | missingComponent (sec : Section) (name : String)
  /-- A reference to an entry that is itself a reference. -/
  | nestedReference (sec : Section) (pointer : String)
  | json (error : JsonError)
  | yaml (fault : Yaml.Fault)
  deriving Repr

def yamlMessageHead : String := "decode YAML document: "

def CompileCause.message : CompileCause → String
  | .noDocument => "no document supplied"
  | .unsupportedReference pointer => "unsupported $ref " ++ Text.shown pointer
  | .missingComponent sec name =>
      "missing components." ++ sec.key ++ " entry " ++ Text.shown name
  | .nestedReference sec pointer => "nested " ++ sec.key ++ " $ref " ++ Text.shown pointer
  | .json error => "decode JSON document: " ++ error.message
  | .yaml fault => yamlMessageHead ++ fault.message

/-! ### Failures -/

/-- A root cause and the places around it, outermost first. -/
structure CompileError where
  contexts : List String
  cause : CompileCause
  deriving Repr

namespace CompileError

def ofCause (cause : CompileCause) : CompileError := ⟨[], cause⟩

def within (error : CompileError) (context : String) : CompileError :=
  { error with contexts := context :: error.contexts }

/-- The places and the cause, joined by colons. -/
def message (error : CompileError) : String :=
  String.intercalate ": " (error.contexts ++ [error.cause.message])

end CompileError

end OpenApiTypings
