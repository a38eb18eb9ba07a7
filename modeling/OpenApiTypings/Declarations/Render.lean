import OpenApiTypings.Declarations.Access
import OpenApiTypings.Declarations.Banner
import OpenApiTypings.Declarations.Basic
import OpenApiTypings.Declarations.Status

/-!
# The text of the declarations

A generated file is the banner followed by the enums and the types `Servers`,
`Components`, `Routes` and `Webhooks`, each left out when it would be empty.  The
text depends on the declarations alone, so equal declarations give equal files.
-/

namespace OpenApiTypings

/-! ### Operations -/

/-- The parameters of one group, as a field of an operation. -/
def renderParameters (label : String) (parameters : Table ParameterType) : String :=
  if parameters.isEmpty then ""
  else
    "      " ++ label ++ ": \x7b\n" ++
      String.join (parameters.map fun (name, parameter) =>
        Text.field "        " (Field.key ⟨name, parameter.type, !parameter.required⟩)
          parameter.type) ++
      "      \x7d;\n"

/-- The type of a list as a field of an operation, which an empty list leaves out. -/
def renderListField (key : String) (listType : List α → TypeExpr) (entries : List α) : String :=
  if entries.isEmpty then "" else Text.field "      " key (listType entries).render

namespace OperationTypes

def renderSecurity (op : OperationTypes) : String :=
  renderListField "security" SecurityRequirement.listType op.security

def renderServers (op : OperationTypes) : String :=
  renderListField "servers" Server.listType op.servers

def renderRequestBody (op : OperationTypes) : String :=
  match op.requestBody with
  | none => ""
  | some body => Text.field "      " "requestBody" body

/-- The responses of an operation, in the order of their codes. -/
def renderResponses (op : OperationTypes) : String :=
  "      responses: \x7b\n" ++
    String.join ((Status.sortByCode op.responses).map fun (code, type) =>
      Text.field "        " (Status.key code) type) ++
    "      \x7d;\n"

def render (op : OperationTypes) : String :=
  renderParameters "params" op.path ++ renderParameters "query" op.query ++
    renderParameters "headers" op.header ++ renderParameters "cookies" op.cookie ++
    op.renderSecurity ++ op.renderServers ++ op.renderRequestBody ++ op.renderResponses

end OperationTypes

/-- The operations of one item, in the order of the names of their methods. -/
def ItemTypes.ordered (item : ItemTypes) : List (Method × OperationTypes) :=
  Method.nameOrder.filterMap fun method =>
    (List.lookup method item).map fun op => (method, op)

def renderItem (key : String) (item : ItemTypes) : String :=
  "  " ++ Text.quote key ++ ": \x7b\n" ++
    String.join (item.ordered.map fun (method, op) =>
      "    " ++ method.key ++ ": \x7b\n" ++ op.render ++ "    \x7d;\n") ++
    "  \x7d;\n"

/-- The type that declares paths or webhooks. -/
def renderItems (label : String) (items : Table ItemTypes) : String :=
  if items.isEmpty then ""
  else
    "export type " ++ label ++ " = \x7b\n" ++
      String.join (items.map fun (key, item) => renderItem key item) ++ "\x7d;\n\n"

/-! ### Files -/

namespace Declarations

/-- The type that declares the components, with the sections that have entries. -/
def renderComponents (decls : Declarations) : String :=
  let sections := decls.sections.filter fun (_, entries) => !entries.isEmpty
  if sections.isEmpty then ""
  else
    "export type Components = \x7b\n" ++
      String.join (sections.map fun (sec, entries) =>
        "  " ++ sec.key ++ ": \x7b\n" ++
          String.join (entries.map fun (name, type) =>
            Text.field "    " (Text.propertyKey name) type) ++
          "  \x7d;\n") ++
      "\x7d;\n\n"

def renderServers (decls : Declarations) : String :=
  if decls.servers.isEmpty then ""
  else "export type Servers = " ++ (Server.listType decls.servers).render ++ ";\n\n"

/-- All declarations, without a banner. -/
def render (decls : Declarations) : String :=
  String.join (decls.enums.map fun (name, members) => EnumDecl.render ⟨name, members⟩) ++
    decls.renderServers ++ decls.renderComponents ++ renderItems "Routes" decls.paths ++
    renderItems "Webhooks" decls.webhooks

def renderFile (banner : Banner) (decls : Declarations) : String :=
  banner.render ++ decls.render

end Declarations

end OpenApiTypings
