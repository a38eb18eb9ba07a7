import OpenApiTypings.Document.Section
import OpenApiTypings.Json.Basic

/-!
# API documents

The parts of an OpenAPI document that reach the declarations: paths, webhooks,
reusable components, servers and security.  Schemas stay JSON values, because a
schema is read keyword by keyword while it is compiled.

Absent texts are empty and absent lists and tables are empty, except where the
difference between absent and empty matters.
-/

namespace OpenApiTypings

/-- An object in place, or a pointer to one. -/
inductive RefOr (α : Type) where
  | reference (pointer : String)
  | inline (value : α)
  deriving Repr

def RefOr.pointer? : RefOr α → Option String
  | .reference pointer => some pointer
  | .inline _ => none

structure ServerVariable where
  default? : Option String := none
  description : String := ""
  values : List String := []
  deriving DecidableEq, Repr

structure Server where
  url : String := ""
  description : String := ""
  placeholders : Table ServerVariable := []
  deriving DecidableEq, Repr

/-- Security schemes that have to be satisfied together, each with its scopes. -/
abbrev SecurityRequirement := Table (List String)

structure MediaType where
  schema : Option (RefOr Json) := none
  deriving Repr

structure Parameter where
  name : String := ""
  location : String := ""
  required : Bool := false
  schema : Option (RefOr Json) := none
  content : Table MediaType := []
  deriving Repr

structure Header where
  required : Bool := false
  schema : Option (RefOr Json) := none
  content : Table MediaType := []
  deriving Repr

structure RequestBody where
  required : Bool := false
  content : Table MediaType := []
  deriving Repr

structure Response where
  description : Option String := none
  headers : Table (RefOr Header) := []
  content : Table MediaType := []
  deriving Repr

structure Operation where
  operationId : Option String := none
  parameters : List (RefOr Parameter) := []
  requestBody : Option (RefOr RequestBody) := none
  responses : Table (RefOr Response) := []
  security : List SecurityRequirement := []
  servers : List Server := []
  deriving Repr

/-- The methods an operation can have, in the order of their names. -/
inductive Method where
  | delete
  | get
  | head
  | options
  | patch
  | post
  | put
  | trace
  deriving DecidableEq, Repr

namespace Method

/-- The key of the method in a path item, and its field in the declarations. -/
def key : Method → String
  | .delete => "delete"
  | .get => "get"
  | .head => "head"
  | .options => "options"
  | .patch => "patch"
  | .post => "post"
  | .put => "put"
  | .trace => "trace"

/-- All methods in the order in which the operations of a path item are compiled. -/
def compileOrder : List Method :=
  [.get, .post, .put, .patch, .delete, .options, .head, .trace]

/-- All methods in the order of their names, in which operations are written. -/
def nameOrder : List Method :=
  [.delete, .get, .head, .options, .patch, .post, .put, .trace]

end Method

structure PathItem where
  get : Option Operation := none
  put : Option Operation := none
  post : Option Operation := none
  delete : Option Operation := none
  options : Option Operation := none
  head : Option Operation := none
  patch : Option Operation := none
  trace : Option Operation := none
  parameters : List (RefOr Parameter) := []
  servers : List Server := []
  deriving Repr

def PathItem.operation? (item : PathItem) : Method → Option Operation
  | .get => item.get
  | .put => item.put
  | .post => item.post
  | .delete => item.delete
  | .options => item.options
  | .head => item.head
  | .patch => item.patch
  | .trace => item.trace

structure OAuthFlow where
  authorizationUrl : String := ""
  tokenUrl : String := ""
  refreshUrl : String := ""
  scopes : Table String := []
  deriving DecidableEq, Repr

structure OAuthFlows where
  implicit : Option OAuthFlow := none
  password : Option OAuthFlow := none
  clientCredentials : Option OAuthFlow := none
  authorizationCode : Option OAuthFlow := none
  deriving DecidableEq, Repr

structure SecurityScheme where
  kind : String := ""
  description : String := ""
  name : String := ""
  location : String := ""
  scheme : String := ""
  bearerFormat : String := ""
  openIdConnectUrl : String := ""
  flows : Option OAuthFlows := none
  deriving DecidableEq, Repr

structure Components where
  schemas : Table (RefOr Json) := []
  responses : Table (RefOr Response) := []
  requestBodies : Table (RefOr RequestBody) := []
  parameters : Table (RefOr Parameter) := []
  headers : Table (RefOr Header) := []
  securitySchemes : Table (RefOr SecurityScheme) := []
  pathItems : Table (RefOr PathItem) := []
  deriving Repr

structure Info where
  title : Option String := none
  version : Option String := none
  deriving DecidableEq, Repr

structure Document where
  openapi : Option String := none
  info : Info := {}
  paths : Table (RefOr PathItem) := []
  webhooks : Table (RefOr PathItem) := []
  components : Option Components := none
  servers : List Server := []
  security : List SecurityRequirement := []
  deriving Repr

/-- The component schemas of a document; none without `components`. -/
def Document.schemas (doc : Document) : Table (RefOr Json) :=
  match doc.components with
  | some components => components.schemas
  | none => []

end OpenApiTypings
