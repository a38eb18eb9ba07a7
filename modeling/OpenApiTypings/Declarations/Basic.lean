import OpenApiTypings.Document.Basic
import OpenApiTypings.Enum.Declaration

/-!
# Declarations of a document

A document is turned into declarations in two steps.  In between stands a value of
type `Declarations`: every type is a text, every reference is settled, and what
operations inherit has been put in place.  Its tables are sorted by key.
-/

namespace OpenApiTypings

structure ParameterType where
  type : String
  required : Bool
  deriving DecidableEq, Repr

structure OperationTypes where
  path : Table ParameterType := []
  query : Table ParameterType := []
  header : Table ParameterType := []
  cookie : Table ParameterType := []
  requestBody : Option String := none
  responses : Table String := []
  security : List SecurityRequirement := []
  servers : List Server := []
  deriving DecidableEq, Repr

abbrev ItemTypes := List (Method × OperationTypes)

/-- Everything that is declared for a document. -/
structure Declarations where
  schemas : Table String := []
  responses : Table String := []
  requestBodies : Table String := []
  parameters : Table String := []
  headers : Table String := []
  securitySchemes : Table String := []
  enums : Table (List EnumMember) := []
  paths : Table ItemTypes := []
  webhooks : Table ItemTypes := []
  servers : List Server := []
  deriving DecidableEq, Repr

/-- The component sections in the order in which they are declared. -/
def Declarations.sections (decls : Declarations) : List (Section × Table String) :=
  [(.schemas, decls.schemas), (.responses, decls.responses),
    (.requestBodies, decls.requestBodies), (.parameters, decls.parameters),
    (.headers, decls.headers), (.securitySchemes, decls.securitySchemes)]

end OpenApiTypings
