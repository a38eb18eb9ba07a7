import OpenApiTypings.Calendar

/-!
# The banner of a generated file

A comment at the top of the file tells what made it, for which version of the
document format, and when.
-/

namespace OpenApiTypings

def generatorName : String := "openapi-tsgen"

/-- Where a generated file comes from. -/
structure Banner where
  generatorVersion : Option String := none
  openapiVersion : Option String := none
  generatedAt : Moment
  deriving DecidableEq, Repr

namespace Banner

/-- The program with its version, if one is given. -/
def generator (banner : Banner) : String :=
  match banner.generatorVersion with
  | none => generatorName
  | some version =>
      if version.isEmpty then generatorName else generatorName ++ "@" ++ version

/-- The line for the version of the document format; left out when it is not given
or empty. -/
def versionLine (banner : Banner) : String :=
  match banner.openapiVersion with
  | none => ""
  | some version =>
      if version.isEmpty then "" else " * OpenAPI version: " ++ version ++ "\n"

/-- The comment, with a blank line behind it. -/
def render (banner : Banner) : String :=
  "/*\n" ++ " * @Warning: THIS FILE IS AUTO-GENERATED - DO NOT EDIT\n" ++ " *\n" ++
    " * Generator: " ++ banner.generator ++ "\n" ++ banner.versionLine ++
    " * Generated at: " ++ banner.generatedAt.text ++ "\n" ++ " */\n\n"

/-- The banner with the document's own version unless it names one. -/
def withVersionOf (banner : Banner) (documentVersion : Option String) : Banner :=
  { banner with openapiVersion := banner.openapiVersion.or documentVersion }

end Banner

end OpenApiTypings
