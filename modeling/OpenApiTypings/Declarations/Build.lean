import OpenApiTypings.Declarations.Access
import OpenApiTypings.Declarations.Basic
import OpenApiTypings.Document.Resolve
import OpenApiTypings.Schema.Compile

/-!
# From a document to its declarations

Components are compiled first, section by section, then paths, then webhooks, each
in the order of their keys.  All schemas share one registry of enums, so an enum is
named the same wherever it is used, and enums of components take their names before
those of operations.

A reference that cannot be resolved ends the build, with the places around it.  The
one exception is a header of a response, which becomes unknown.
-/

namespace OpenApiTypings

open Schema (Mode Scope)

/-- A build step: it may fail, and it declares enums. -/
abbrev Build := ExceptT CompileError Compilation

namespace Build

/-- A compilation as a build step that does not fail. -/
def ofCompilation (m : Compilation α) : Build α := ExceptT.lift m

def note (event : Event) : Build Unit := ofCompilation (Compilation.note event)

/-- A resolved object, or the failure without a place. -/
def ofResolved (result : Except CompileCause α) : Build α :=
  match result with
  | .ok value => pure value
  | .error cause => throw (.ofCause cause)

/-- A build step inside a place that its failure names. -/
def inside (context : String) (step : Build α) : Build α :=
  ExceptT.adapt (fun error => error.within context) step

end Build

/-! ### Bodies, parameters and headers -/

/-- The type of a body: the union of the distinct types of its media types, or
`empty` when there are none. -/
def contentType (doc : Document) (content : Table MediaType) (empty : TypeExpr)
    (hint : String) (mode : Mode) : Compilation TypeExpr :=
  if content.isEmpty then return empty
  else do
    let types ← (Table.sorted content).mapM fun (mediaType, payload) =>
      Schema.compileOptional doc.schemas payload.schema
        (Scope.top mode (Text.joinHint hint (Text.mediaTypeSegment mediaType)))
    return TypeExpr.unionOf (distinctBy TypeExpr.render types)

def schemaOrContentType (doc : Document) (schema : Option (RefOr Json))
    (content : Table MediaType) (hint : String) (mode : Mode) : Compilation TypeExpr :=
  match schema with
  | some slot => Schema.compile doc.schemas slot (Scope.top mode hint)
  | none => contentType doc content .unknown hint mode

/-- The type of a parameter, which is part of a request. -/
def Parameter.compile (doc : Document) (hint : String) (parameter : Parameter) :
    Compilation TypeExpr :=
  schemaOrContentType doc parameter.schema parameter.content hint .input

/-- The type of a header, which is part of a response. -/
def Header.compile (doc : Document) (hint : String) (header : Header) :
    Compilation TypeExpr :=
  schemaOrContentType doc header.schema header.content hint .output

def RequestBody.compile (doc : Document) (hint : String) (body : RequestBody) :
    Compilation TypeExpr :=
  contentType doc body.content .unknown hint .input

/-- The look-up of a referenced component, or the type of an object in place. -/
def lookupOr (kind : ComponentKind α) (slot : RefOr α) (compiled : Compilation TypeExpr) :
    Compilation TypeExpr :=
  match lookup? kind slot with
  | some (sec, name) => return .component sec name
  | none => compiled

/-- The field of a response header.  A header that cannot be resolved is reported
and may hold anything. -/
def responseHeaderField (doc : Document) (name : String) (slot : RefOr Header) :
    Compilation (Field TypeExpr) :=
  match resolve .header doc slot with
  | .ok header => do
      let type ← lookupOr .header slot (header.compile doc name)
      return Field.requiredIf header.required name type
  | .error cause => do
      Compilation.note (.headerUnresolved name (.ofCause cause))
      return Field.possible name .unknown

/-- The type of a response: its body, or headers and body when it has headers. -/
def Response.compile (doc : Document) (hint : String) (response : Response) :
    Compilation TypeExpr := do
  let body ← contentType doc response.content .never hint .output
  if response.headers.isEmpty then return body
  else
    let headers ← (Table.sorted response.headers).mapM fun (name, slot) =>
      responseHeaderField doc name slot
    return .object
      [Field.required "headers" (TypeExpr.objectOf headers), Field.required "body" body]

/-! ### Components -/

def compileSection (doc : Document) (kind : ComponentKind α) (entries : Table (RefOr α))
    (compile : String → α → Compilation TypeExpr) : Build (Table String) :=
  (Table.sorted entries).mapM fun (name, slot) => do
    let value ← Build.inside ("components." ++ kind.sec.key ++ "." ++ name)
      (Build.ofResolved (resolve kind doc slot))
    let type ← Build.ofCompilation (compile name value)
    return (name, type.render)

def compileSchemas (doc : Document) (entries : Table (RefOr Json)) :
    Compilation (Table String) :=
  (Table.sorted entries).mapM fun (name, slot) => do
    let type ← Schema.compile doc.schemas slot (Scope.top .component name)
    return (name, type.render)

def compileComponents (doc : Document) : Build Declarations :=
  match doc.components with
  | none => return {}
  | some components => do
      let schemas ← Build.ofCompilation (compileSchemas doc components.schemas)
      let responses ← compileSection doc .response components.responses
        (Response.compile doc)
      let requestBodies ← compileSection doc .requestBody components.requestBodies
        (RequestBody.compile doc)
      let parameters ← compileSection doc .parameter components.parameters
        (Parameter.compile doc)
      let headers ← compileSection doc .header components.headers (Header.compile doc)
      let securitySchemes ← compileSection doc .securityScheme components.securitySchemes
        fun _ scheme => return scheme.type
      return { schemas, responses, requestBodies, parameters, headers, securitySchemes }

/-! ### Operations -/

/-- What tells the parameters of an operation apart. -/
structure ParameterKey where
  name : String
  location : String
  deriving DecidableEq, Repr

/-- Parameters are ordered by name, and those of one name by location. -/
instance : LT ParameterKey where
  lt a b := a.name < b.name ∨ (a.name = b.name ∧ a.location < b.location)

instance : DecidableLT ParameterKey := fun a b =>
  inferInstanceAs (Decidable (a.name < b.name ∨ (a.name = b.name ∧ a.location < b.location)))

abbrev ParameterTable := List (ParameterKey × ParameterType)

/-- The types of a list of parameters.  The last parameter of a name and location
wins, and a path parameter is always required. -/
def compileParameters (doc : Document) (slots : List (RefOr Parameter)) :
    Build ParameterTable := do
  let entries ← slots.mapM fun slot => do
    let parameter ← Build.ofResolved (resolve .parameter doc slot)
    let type ← Build.ofCompilation <|
      lookupOr .parameter slot (parameter.compile doc parameter.name)
    let required := parameter.required || parameter.location = "path"
    let key := ParameterKey.mk parameter.name parameter.location
    return (key, ParameterType.mk type.render required)
  return Table.sorted entries

def knownLocations : List String := ["path", "query", "header", "cookie"]

def parametersIn (parameters : ParameterTable) (location : String) :
    Table ParameterType :=
  parameters.filterMap fun (key, type) =>
    if key.location = location then some (key.name, type) else none

/-- Reports the parameters whose location is none of the known ones. -/
def noteDropped (parameters : ParameterTable) : Compilation Unit :=
  parameters.forM fun (key, _) =>
    if knownLocations.contains key.location then return ()
    else Compilation.note (.parameterDropped key.name key.location)

/-- The type of a request body; `none` when the operation has none. -/
def compileRequestBody (doc : Document) (method : Method) (op : Operation) :
    Build (Option String) :=
  match op.requestBody with
  | none => return none
  | some slot => do
      let body ← Build.ofResolved (resolve .requestBody doc slot)
      let type ← Build.ofCompilation <|
        lookupOr .requestBody slot
          (body.compile doc (Text.joinHint method.key "RequestBody"))
      return some type.render

def compileResponses (doc : Document) (method : Method) (op : Operation) :
    Build (Table String) :=
  (Table.sorted op.responses).mapM fun (code, slot) => do
    let response ← Build.ofResolved (resolve .response doc slot)
    let type ← Build.ofCompilation <|
      lookupOr .response slot
        (response.compile doc (Text.joinHint method.key ("Response_" ++ code)))
    return (code, type.render)

def firstNonEmpty : List (List α) → List α
  | [] => []
  | xs :: rest => if xs.isEmpty then firstNonEmpty rest else xs

/-- The types of an operation.  Its own parameters replace those of its path item
with the same name and location; security and servers are inherited when it has
none of its own. -/
def compileOperation (doc : Document) (item : PathItem) (shared : ParameterTable)
    (method : Method) (op : Operation) : Build OperationTypes := do
  let own ← Build.inside (method.key ++ " params") (compileParameters doc op.parameters)
  let merged := Table.sorted (shared ++ own)
  Build.ofCompilation (noteDropped merged)
  let requestBody ← Build.inside (method.key ++ " requestBody")
    (compileRequestBody doc method op)
  let responses ← Build.inside (method.key ++ " responses")
    (compileResponses doc method op)
  return {
    path := parametersIn merged "path"
    query := parametersIn merged "query"
    header := parametersIn merged "header"
    cookie := parametersIn merged "cookie"
    requestBody, responses
    security := firstNonEmpty [op.security, doc.security]
    servers := firstNonEmpty [op.servers, item.servers, doc.servers] }

/-- The operations that a path item declares, in the order in which they are
compiled. -/
def PathItem.operations (item : PathItem) : List (Method × Operation) :=
  Method.compileOrder.filterMap fun method =>
    (item.operation? method).map fun op => (method, op)

def compileItem (doc : Document) (item : PathItem) : Build ItemTypes := do
  let shared ← compileParameters doc item.parameters
  item.operations.mapM fun (method, op) => do
    return (method, ← compileOperation doc item shared method op)

/-- The types of paths or webhooks.  Items without operations are left out. -/
def compileItems (doc : Document) (label : String) (items : Table (RefOr PathItem)) :
    Build (Table ItemTypes) := do
  let compiled ← (Table.sorted items).mapM fun (key, slot) => do
    let types ← Build.inside (label ++ " " ++ Text.shown key) do
      compileItem doc (← Build.ofResolved (resolve .pathItem doc slot))
    if types.isEmpty then
      Build.note (.itemSkipped label key)
      return none
    else return some (key, types)
  return compiled.filterMap id

/-! ### Documents -/

/-- The declarations of a document, all but the enums. -/
def compileDocument (doc : Document) : Build Declarations := do
  let components ← compileComponents doc
  let paths ← compileItems doc "path" doc.paths
  let webhooks ← compileItems doc "webhook" doc.webhooks
  return { components with paths, webhooks, servers := doc.servers }

def Document.buildingEvent (doc : Document) : Event :=
  .building (doc.openapi.getD "") doc.paths.length doc.webhooks.length doc.schemas.length

def Declarations.builtEvent (decls : Declarations) : Event :=
  .built decls.enums.length decls.paths.length decls.webhooks.length

def buildLogged (doc : Document) : Except CompileError Declarations × List Event :=
  let outcome := Compilation.run (compileDocument doc).run Registry.empty
  let opened := doc.buildingEvent :: outcome.events
  match outcome.value with
  | .error error => (.error error, opened)
  | .ok decls =>
      let complete := { decls with enums := outcome.enums.entries }
      (.ok complete, opened ++ [complete.builtEvent])

def build (doc : Document) : Except CompileError Declarations :=
  (buildLogged doc).1

theorem build_eq (doc : Document) :
    build doc = ((compileDocument doc).run.run Registry.empty).value.map fun decls =>
      { decls with
        enums := ((compileDocument doc).run.run Registry.empty).enums.entries } := by
  unfold build buildLogged
  simp only
  split
  · rename_i error herror
    rw [herror]
    rfl
  · rename_i decls hdecls
    rw [hdecls]
    rfl

end OpenApiTypings
