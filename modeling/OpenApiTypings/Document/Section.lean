import OpenApiTypings.Text.Lines
import OpenApiTypings.Text.Quoted

/-!
# Sections of reusable objects

A document keeps its reusable objects in sections under `components`.  A reference
addresses one of them by the pointer `#/components/<section>/<name>`, and the
declarations look one up in the type `Components`.
-/

namespace OpenApiTypings

inductive Section where
  | schemas
  | responses
  | requestBodies
  | parameters
  | headers
  | securitySchemes
  | pathItems
  deriving DecidableEq, Repr

namespace Section

def key : Section → String
  | .schemas => "schemas"
  | .responses => "responses"
  | .requestBodies => "requestBodies"
  | .parameters => "parameters"
  | .headers => "headers"
  | .securitySchemes => "securitySchemes"
  | .pathItems => "pathItems"

/-- What every pointer into the section begins with. -/
def pointerHead (sec : Section) : String :=
  "#/components/" ++ sec.key ++ "/"

/-- The name that a pointer addresses in the section, if it points there.  The name
is everything behind the section key and its slash, even if it is empty or holds
further slashes. -/
def nameIn? (sec : Section) (pointer : String) : Option String :=
  (Text.dropHead? sec.pointerHead.toList pointer.toList).map String.ofList

/-- The look-up of a component in the declarations. -/
def lookupText (sec : Section) (name : String) : String :=
  "Components[" ++ Text.quote sec.key ++ "][" ++ Text.quote name ++ "]"

end Section

end OpenApiTypings
