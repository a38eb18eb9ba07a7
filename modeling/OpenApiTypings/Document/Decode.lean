import OpenApiTypings.Document.Decoder
import OpenApiTypings.Log.Event
import OpenApiTypings.Yaml.Value

/-!
# Decoding a document

One decoder for each kind of object in a document.  The order of the fields is the
order in which a list gives them.  Most fields take `null` for their default; the
exceptions are plain texts and truth values, which must be given as such or not at
all.

A source is JSON or YAML text.  Both are read into a JSON tree, and the tree is
decoded.  A source of white space alone holds no document, in either format.
-/

namespace OpenApiTypings

open Decoder

def ServerVariable.decode : Decoder ServerVariable :=
  record "ServerVariable"
    [.of "default" scalarText fun v r => { r with default? := v },
      .of "description" text fun v r => { r with description := v },
      .of "enum" (nullable [] (list text)) fun v r => { r with values := v }]
    {}

def Server.decode : Decoder Server :=
  record "Server"
    [.of "url" text fun v r => { r with url := v },
      .of "description" text fun v r => { r with description := v },
      .of "variables" (nullable [] (table ServerVariable.decode)) fun v r =>
        { r with placeholders := v }]
    {}

def Server.decodeList : Decoder (List Server) := list Server.decode

def SecurityRequirement.decodeList : Decoder (List SecurityRequirement) :=
  list (table (list text))

def MediaType.decode : Decoder MediaType :=
  record "MediaType"
    [.mandatory <| .of "schema" (optional schemaSlot) fun v r => { r with schema := v }]
    {}

def MediaType.decodeContent : Decoder (Table MediaType) :=
  nullable [] (table MediaType.decode)

def Parameter.decode : Decoder Parameter :=
  record "Parameter"
    [.of "name" text fun v r => { r with name := v },
      .of "in" text fun v r => { r with location := v },
      .of "required" truth fun v r => { r with required := v },
      .mandatory <| .of "schema" (optional schemaSlot) fun v r => { r with schema := v },
      .of "content" MediaType.decodeContent fun v r => { r with content := v }]
    {}

def Header.decode : Decoder Header :=
  record "Header"
    [.of "required" truth fun v r => { r with required := v },
      .mandatory <| .of "schema" (optional schemaSlot) fun v r => { r with schema := v },
      .of "content" MediaType.decodeContent fun v r => { r with content := v }]
    {}

def RequestBody.decode : Decoder RequestBody :=
  record "RequestBody"
    [.of "required" truth fun v r => { r with required := v },
      .of "content" MediaType.decodeContent fun v r => { r with content := v }]
    {}

def Response.decode : Decoder Response :=
  record "Response"
    [.mandatory <| .of "description" (optional text) fun v r =>
        { r with description := v },
      .of "headers" (nullable [] (table (refOr Header.decode))) fun v r =>
        { r with headers := v },
      .of "content" MediaType.decodeContent fun v r => { r with content := v }]
    {}

def Parameter.decodeList : Decoder (List (RefOr Parameter)) :=
  nullable [] (list (refOr Parameter.decode))

def Operation.decode : Decoder Operation :=
  record "Operation"
    [.mandatory <| .of "operationId" (optional text) fun v r =>
        { r with operationId := v },
      .of "parameters" Parameter.decodeList fun v r => { r with parameters := v },
      .mandatory <| .of "requestBody" (optional (refOr RequestBody.decode)) fun v r =>
        { r with requestBody := v },
      .of "responses" (nullable [] (table (refOr Response.decode))) fun v r =>
        { r with responses := v },
      .of "security" (nullable [] SecurityRequirement.decodeList) fun v r =>
        { r with security := v },
      .of "servers" (nullable [] Server.decodeList) fun v r => { r with servers := v }]
    {}

/-- The field of a path item for one method. -/
def PathItem.methodField (key : String)
    (put : Option Operation → PathItem → PathItem) : RecordField PathItem :=
  .mandatory <| .of key (optional Operation.decode) put

def PathItem.decode : Decoder PathItem :=
  record "PathItem"
    [methodField "get" fun v r => { r with get := v },
      methodField "put" fun v r => { r with put := v },
      methodField "post" fun v r => { r with post := v },
      methodField "delete" fun v r => { r with delete := v },
      methodField "options" fun v r => { r with options := v },
      methodField "head" fun v r => { r with head := v },
      methodField "patch" fun v r => { r with patch := v },
      methodField "trace" fun v r => { r with trace := v },
      .of "parameters" Parameter.decodeList fun v r => { r with parameters := v },
      .of "servers" (nullable [] Server.decodeList) fun v r => { r with servers := v }]
    {}

def PathItem.decodeTable : Decoder (Table (RefOr PathItem)) :=
  nullable [] (table (refOr PathItem.decode))

def OAuthFlow.decode : Decoder OAuthFlow :=
  record "OAuthFlow"
    [.of "authorizationUrl" text fun v r => { r with authorizationUrl := v },
      .of "tokenUrl" text fun v r => { r with tokenUrl := v },
      .of "refreshUrl" text fun v r => { r with refreshUrl := v },
      .of "scopes" (nullable [] (table text)) fun v r => { r with scopes := v }]
    {}

/-- The field of a set of flows for one of them. -/
def OAuthFlows.flowField (key : String)
    (put : Option OAuthFlow → OAuthFlows → OAuthFlows) : RecordField OAuthFlows :=
  .mandatory <| .of key (optional OAuthFlow.decode) put

def OAuthFlows.decode : Decoder OAuthFlows :=
  record "OAuthFlows"
    [flowField "implicit" fun v r => { r with implicit := v },
      flowField "password" fun v r => { r with password := v },
      flowField "clientCredentials" fun v r => { r with clientCredentials := v },
      flowField "authorizationCode" fun v r => { r with authorizationCode := v }]
    {}

def SecurityScheme.decode : Decoder SecurityScheme :=
  record "SecurityScheme"
    [.of "type" text fun v r => { r with kind := v },
      .of "description" text fun v r => { r with description := v },
      .of "name" text fun v r => { r with name := v },
      .of "in" text fun v r => { r with location := v },
      .of "scheme" text fun v r => { r with scheme := v },
      .of "bearerFormat" text fun v r => { r with bearerFormat := v },
      .of "openIdConnectUrl" text fun v r => { r with openIdConnectUrl := v },
      .mandatory <| .of "flows" (optional OAuthFlows.decode) fun v r =>
        { r with flows := v }]
    {}

def Components.decode : Decoder Components :=
  record "Components"
    [.of "schemas" (nullable [] (table schemaSlot)) fun v r => { r with schemas := v },
      .of "responses" (nullable [] (table (refOr Response.decode))) fun v r =>
        { r with responses := v },
      .of "requestBodies" (nullable [] (table (refOr RequestBody.decode))) fun v r =>
        { r with requestBodies := v },
      .of "parameters" (nullable [] (table (refOr Parameter.decode))) fun v r =>
        { r with parameters := v },
      .of "headers" (nullable [] (table (refOr Header.decode))) fun v r =>
        { r with headers := v },
      .of "securitySchemes" (nullable [] (table (refOr SecurityScheme.decode)))
        fun v r => { r with securitySchemes := v },
      .of "pathItems" PathItem.decodeTable fun v r => { r with pathItems := v }]
    {}

def Info.decode : Decoder Info :=
  record "Info"
    [.of "title" scalarText fun v r => { r with title := v },
      .of "version" scalarText fun v r => { r with version := v }]
    {}

namespace Document

def decode : Decoder Document :=
  record "Document"
    [.of "openapi" scalarText fun v r => { r with openapi := v },
      .of "info" (nullable {} Info.decode) fun v r => { r with info := v },
      .of "paths" PathItem.decodeTable fun v r => { r with paths := v },
      .of "webhooks" PathItem.decodeTable fun v r => { r with webhooks := v },
      .mandatory <| .of "components" (optional Components.decode) fun v r =>
        { r with components := v },
      .of "servers" (nullable [] Server.decodeList) fun v r => { r with servers := v },
      .of "security" (nullable [] SecurityRequirement.decodeList) fun v r =>
        { r with security := v }]
    {}

/-- The document of a tree.  `null` is no document. -/
def ofJson (json : Json) : Except CompileError Document :=
  if json.isNull then .error (.ofCause .noDocument)
  else (decode json).mapError fun e => .ofCause (.json (.shape e))

end Document

/-! ### Sources -/

def SourceFormat.readTree (format : SourceFormat) (source : String) :
    Except CompileError Json :=
  match format with
  | .json => (Json.read source).mapError fun fault => .ofCause (.json (.malformed fault))
  | .yaml => do
      let value ← (Yaml.Value.read source).mapError fun fault => .ofCause (.yaml fault)
      value.tree.mapError fun fault => .ofCause (.json (.key fault))

def Document.parse (format : SourceFormat) (source : String) :
    Except CompileError Document :=
  if Text.allBlank source then .error (.ofCause .noDocument)
  else do Document.ofJson (← format.readTree source)

end OpenApiTypings
