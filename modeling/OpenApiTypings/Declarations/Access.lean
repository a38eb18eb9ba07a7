import OpenApiTypings.Document.Basic
import OpenApiTypings.Type.Union

/-!
# Types of servers and security

Servers, security requirements and security schemes are declared by their content:
the texts of the document become literal types.
-/

namespace OpenApiTypings

/-- The literal type of a text. -/
def TypeExpr.text (s : String) : TypeExpr := .literal (.string s)

/-- The list type of texts from a list. -/
def TypeExpr.textList (values : List String) : TypeExpr :=
  .array (TypeExpr.unionOf (values.map TypeExpr.text))

def Field.textIfPresent (name value : String) : List (Field TypeExpr) :=
  if value.isEmpty then [] else [Field.required name (TypeExpr.text value)]

/-! ### Servers -/

def ServerVariable.type (var : ServerVariable) : TypeExpr :=
  TypeExpr.objectOf <|
    [Field.required "default" (TypeExpr.text (var.default?.getD ""))] ++
      Field.textIfPresent "description" var.description ++
      (if var.values.isEmpty then []
       else [Field.required "enum" (TypeExpr.textList var.values)])

def Server.type (server : Server) : TypeExpr :=
  TypeExpr.objectOf <|
    [Field.required "url" (TypeExpr.text server.url)] ++
      Field.textIfPresent "description" server.description ++
      (if server.placeholders.isEmpty then []
       else
        [Field.required "variables" <| TypeExpr.objectOf <|
          (Table.sorted server.placeholders).map fun entry =>
            Field.required entry.1 entry.2.type])

def Server.listType (servers : List Server) : TypeExpr :=
  TypeExpr.listOf (servers.map Server.type)

/-! ### Security requirements -/

/-- The type of one alternative: each scheme with its scopes. -/
def SecurityRequirement.type (requirement : SecurityRequirement) : TypeExpr :=
  TypeExpr.objectOf <| (Table.sorted requirement).map fun entry =>
    Field.required entry.1 <|
      if entry.2.isEmpty then .array .string else TypeExpr.textList entry.2

def SecurityRequirement.listType (requirements : List SecurityRequirement) : TypeExpr :=
  TypeExpr.listOf (requirements.map SecurityRequirement.type)

/-! ### Security schemes -/

/-- The type of an authorization flow.  Its addresses are any texts. -/
def OAuthFlow.type (flow : OAuthFlow) : TypeExpr :=
  let addresses :=
    [("authorizationUrl", flow.authorizationUrl), ("tokenUrl", flow.tokenUrl),
      ("refreshUrl", flow.refreshUrl)].filter fun entry => !entry.2.isEmpty
  let scopes : TypeExpr :=
    if flow.scopes.isEmpty then .record .string
    else
      TypeExpr.objectOf <| flow.scopes.map fun entry => Field.required entry.1 .string
  TypeExpr.objectOf <|
    addresses.map (fun entry => Field.required entry.1 .string) ++
      [Field.required "scopes" scopes]

/-- The type of a set of authorization flows; unknown when there is none. -/
def OAuthFlows.type : Option OAuthFlows → TypeExpr
  | none => .unknown
  | some flows =>
      let declared :=
        [("implicit", flows.implicit), ("password", flows.password),
          ("clientCredentials", flows.clientCredentials),
          ("authorizationCode", flows.authorizationCode)]
      TypeExpr.objectOf <| declared.filterMap fun entry =>
        entry.2.map fun flow => Field.required entry.1 flow.type

/-- A declared text is its own literal type, and an empty one any text. -/
def TypeExpr.declaredText (s : String) : TypeExpr :=
  if s.isEmpty then .string else TypeExpr.text s

namespace SecurityScheme

/-- The fields of a scheme, by its kind.  A scheme of another kind shows what it
gives. -/
def fields (scheme : SecurityScheme) : List (Field TypeExpr) :=
  let declared (name value : String) := Field.required name (TypeExpr.declaredText value)
  let given (name value : String) :=
    if value.isEmpty then [] else [declared name value]
  if scheme.kind = "apiKey" then
    [declared "in" scheme.location, declared "name" scheme.name,
      declared "type" scheme.kind]
  else if scheme.kind = "http" then
    given "bearerFormat" scheme.bearerFormat ++
      [declared "scheme" scheme.scheme, declared "type" scheme.kind]
  else if scheme.kind = "oauth2" then
    [Field.required "flows" (OAuthFlows.type scheme.flows), declared "type" scheme.kind]
  else if scheme.kind = "openIdConnect" then
    [declared "openIdConnectUrl" scheme.openIdConnectUrl, declared "type" scheme.kind]
  else
    given "bearerFormat" scheme.bearerFormat ++
      (if scheme.flows.isSome then
        [Field.required "flows" (OAuthFlows.type scheme.flows)]
       else []) ++
      given "in" scheme.location ++ given "name" scheme.name ++
      given "openIdConnectUrl" scheme.openIdConnectUrl ++ given "scheme" scheme.scheme ++
      given "type" scheme.kind

/-- The type of a scheme.  A description comes before the other fields, and a scheme
that gives nothing is an open object. -/
def type (scheme : SecurityScheme) : TypeExpr :=
  let declared := scheme.fields
  if declared.isEmpty then .record .unknown
  else if scheme.description.isEmpty then .object declared
  else .object (Field.possible "description" .string :: declared)

end SecurityScheme

end OpenApiTypings
