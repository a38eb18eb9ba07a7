import OpenApiTypings.Proofs.Declarations.Brackets
import OpenApiTypings.Proofs.Output.Banner
import OpenApiTypings.Proofs.Schema.Literals

/-!
# Literals of the declarations

A file holds the literals of its keys and those of the types that are stored, in order.  Types
are moved to the right once for each level at which they are put into fields, and blanks are
taken away from the ends of lines when the file is written; neither touches a literal unless it
is broken over two lines.
-/

namespace OpenApiTypings

open Text (Shows Closed OnOneLine Unbroken shows_of_opensNothing)

/-! ### Enums -/

namespace EnumDecl

/-- The literals of an enum: those of its values. -/
def literals (decl : EnumDecl) : List (List Char) :=
  decl.members.flatMap fun member => Text.literals member.value.toList

end EnumDecl

/-- Every enum of the registry was made from a list of values. -/
def Registry.Listed (registry : Registry) : Prop :=
  ∀ entry ∈ registry.entries, ∃ values, EnumMember.ofValues? values = some entry.2

theorem Registry.Reaches.listed {registry later : Registry} (h : registry.Reaches later)
    (hregistry : registry.Listed) : later.Listed := by
  intro entry hentry
  rcases h.mem_entries hentry with hold | ⟨call, hmembers, -⟩
  · exact hregistry entry hold
  · exact ⟨call.values, hmembers⟩

/-- The value of a member is written as the literal of the value that was listed. -/
theorem EnumMember.unbroken_value {values : List Json} {members : List EnumMember}
    (h : ofValues? values = some members) {member : EnumMember} (hmember : member ∈ members) :
    Unbroken member.value.toList := by
  have hvalue : some member.value ∈
      values.map fun v => (Literal.ofJson? v).map Literal.render := by
    rw [ofValues?_values h]
    exact List.mem_map_of_mem hmember
  obtain ⟨v, -, hv⟩ := List.mem_map.mp hvalue
  obtain ⟨l, hl, heq⟩ := Option.map_eq_some_iff.mp hv
  rw [← heq]
  exact (Literal.shows_render hl).unbroken l.onOneLine_literals

theorem EnumDecl.shows_render {decl : EnumDecl} (hname : Spelled decl.name.toList)
    (hmembers : ∀ member ∈ decl.members,
      Spelled member.name.toList ∧ Closed member.value.toList) :
    Shows decl.render decl.literals := by
  have hbody : Shows (String.join (decl.members.map fun m =>
      "  " ++ m.name ++ " = " ++ m.value ++ ",\n")) decl.literals := by
    refine Text.shows_join fun member hmember => ?_
    obtain ⟨hspelled, hvalue⟩ := hmembers member hmember
    have hlabel := (Text.shows_of_bare hspelled.isBare).between
      (show Text.opensNothing "  " = true by decide) (show Text.opensNothing " = " = true by decide)
    exact (hlabel.append (hvalue.shows rfl)).followed (by decide)
  have hhead := (Text.shows_of_bare hname.isBare).between
    (show Text.opensNothing "export const enum " = true by decide)
    (show Text.opensNothing " \x7b\n" = true by decide)
  exact (hhead.append hbody).followed (by decide)

/-! ### Operations -/

namespace Status

/-- The literals of the key of a code: none when it is bare. -/
def keyLiterals (code : String) : List (List Char) :=
  if (number? code).isSome || code = "default" then [] else [(Text.quote code).toList]

theorem shows_key (code : String) : Shows (key code) (keyLiterals code) := by
  unfold key keyLiterals
  split
  · rename_i hbare
    exact Text.shows_of_bare (isBare_of_mem_code hbare)
  · exact Text.shows_quote code

theorem onOneLine_keyLiterals (code : String) : OnOneLine (keyLiterals code) := by
  unfold keyLiterals
  split
  · exact Text.onOneLine_nil
  · exact Text.onOneLine_quote code

end Status

/-- The literals of parameters, each with its key. -/
def parameterLiterals (parameters : Table ParameterType) : List (List Char) :=
  parameters.flatMap fun entry => Text.keyLiterals entry.1 ++ Text.literals entry.2.type.toList

theorem shows_renderParameters {label : String} (hlabel : Text.opensNothing label = true)
    {parameters : Table ParameterType}
    (h : ∀ entry ∈ parameters, Closed entry.2.type.toList) :
    Shows (renderParameters label parameters) (parameterLiterals parameters) := by
  unfold renderParameters
  split
  · rename_i hempty
    rw [List.isEmpty_iff.mp hempty]
    exact shows_of_opensNothing (by decide)
  · have hhead := (shows_of_opensNothing hlabel).between
      (show Text.opensNothing "      " = true by decide)
      (show Text.opensNothing ": \x7b\n" = true by decide)
    refine (hhead.append (Text.shows_join fun entry hentry => ?_)).followed (by decide)
    exact Shows.field (by decide) (Field.shows_key _) ((h entry hentry).shows rfl)

theorem onOneLine_parameterLiterals {parameters : Table ParameterType}
    (h : ∀ entry ∈ parameters, OnOneLine (Text.literals entry.2.type.toList)) :
    OnOneLine (parameterLiterals parameters) :=
  Text.onOneLine_flatMap fun entry hentry =>
    Text.onOneLine_append_iff.mpr ⟨Text.onOneLine_keyLiterals entry.1, h entry hentry⟩

theorem shows_renderListField {key : String} (hkey : Text.opensNothing key = true)
    {listType : List α → TypeExpr} (hnil : (listType []).literals = []) {entries : List α}
    (h : Shows (listType entries).render (listType entries).literals) :
    Shows (renderListField key listType entries) (listType entries).literals := by
  unfold renderListField
  split
  · rename_i hempty
    rw [List.isEmpty_iff.mp hempty, hnil]
    exact shows_of_opensNothing (by decide)
  · exact Shows.field (by decide) (shows_of_opensNothing hkey) h

/-- The texts of servers come into the file in quoted literals alone. -/
theorem Server.onOneLine_literals (servers : List Server) :
    OnOneLine (Server.listType servers).literals :=
  TypeExpr.onOneLine_of_writesLiteral nofun
    (Server.listType_composes (TypeExpr.composes_writesLiteral fun _ => False) servers)

namespace OperationTypes

/-- The literals of the request body, if there is one. -/
def bodyLiterals (op : OperationTypes) : List (List Char) :=
  match op.requestBody with
  | none => []
  | some body => Text.literals body.toList

/-- The literals of the responses, in the order of their codes. -/
def responseLiterals (op : OperationTypes) : List (List Char) :=
  (Status.sortByCode op.responses).flatMap fun entry =>
    Status.keyLiterals entry.1 ++ Text.literals entry.2.toList

/-- The literals of an operation, in order. -/
def literals (op : OperationTypes) : List (List Char) :=
  parameterLiterals op.path ++ parameterLiterals op.query ++ parameterLiterals op.header ++
    parameterLiterals op.cookie ++ (SecurityRequirement.listType op.security).literals ++
    (Server.listType op.servers).literals ++ op.bodyLiterals ++ op.responseLiterals

section Stored

variable {op : OperationTypes}

theorem shows_renderRequestBody (h : ∀ body, op.requestBody = some body → Closed body.toList) :
    Shows op.renderRequestBody op.bodyLiterals := by
  unfold renderRequestBody bodyLiterals
  cases hbody : op.requestBody with
  | none => exact shows_of_opensNothing (by decide)
  | some body =>
    exact Shows.field (by decide) (shows_of_opensNothing (by decide)) ((h body hbody).shows rfl)

theorem shows_renderResponses (h : ∀ entry ∈ op.responses, Closed entry.2.toList) :
    Shows op.renderResponses op.responseLiterals := by
  refine (Text.shows_join fun entry hentry => ?_).between (by decide) (by decide)
  exact Shows.field (by decide) (Status.shows_key entry.1)
    ((h _ (Status.mem_of_mem_sortByCode hentry)).shows rfl)

theorem shows_render (h : op.Stores fun text => Closed text.toList) :
    Shows op.render op.literals := by
  refine .append ?_ (shows_renderResponses h.responses)
  refine .append ?_ (shows_renderRequestBody h.requestBody)
  have hservers := Server.listType_composes TypeExpr.composes_legible op.servers
  refine .append ?_ (shows_renderListField (by decide) rfl hservers)
  have hsecurity := SecurityRequirement.listType_composes TypeExpr.composes_legible op.security
  refine .append ?_ (shows_renderListField (by decide) rfl hsecurity)
  refine .append ?_ (shows_renderParameters (by decide) h.cookie)
  refine .append ?_ (shows_renderParameters (by decide) h.header)
  exact (shows_renderParameters (by decide) h.path).append
    (shows_renderParameters (by decide) h.query)

theorem onOneLine_bodyLiterals
    (h : ∀ body, op.requestBody = some body → OnOneLine (Text.literals body.toList)) :
    OnOneLine op.bodyLiterals := by
  unfold bodyLiterals
  split
  · exact Text.onOneLine_nil
  · exact h _ (by assumption)

theorem onOneLine_literals (h : op.Stores fun text => OnOneLine (Text.literals text.toList)) :
    OnOneLine op.literals := by
  have hsecurity : OnOneLine (SecurityRequirement.listType op.security).literals :=
    TypeExpr.onOneLine_of_writesLiteral nofun
      (SecurityRequirement.listType_composes (TypeExpr.composes_writesLiteral fun _ => False) _)
  have hresponses : OnOneLine op.responseLiterals := Text.onOneLine_flatMap fun entry hentry =>
    Text.onOneLine_append_iff.mpr ⟨Status.onOneLine_keyLiterals entry.1,
      h.responses _ (Status.mem_of_mem_sortByCode hentry)⟩
  simp only [literals, Text.onOneLine_append_iff]
  exact ⟨⟨⟨⟨⟨⟨⟨onOneLine_parameterLiterals h.path, onOneLine_parameterLiterals h.query⟩,
    onOneLine_parameterLiterals h.header⟩, onOneLine_parameterLiterals h.cookie⟩, hsecurity⟩,
    Server.onOneLine_literals op.servers⟩, onOneLine_bodyLiterals h.requestBody⟩, hresponses⟩

end Stored

end OperationTypes

/-! ### Items -/

/-- The literals of an item: its key, and those of its operations. -/
def itemLiterals (key : String) (item : ItemTypes) : List (List Char) :=
  (Text.quote key).toList :: (ItemTypes.ordered item).flatMap fun entry => entry.2.literals

theorem shows_renderItem (key : String) {item : ItemTypes}
    (h : item.Stores fun text => Closed text.toList) :
    Shows (renderItem key item) (itemLiterals key item) := by
  have hmethod : ∀ method : Method, Text.opensNothing method.key = true := by
    intro method
    cases method <;> decide
  have hoperation : ∀ entry ∈ item.ordered,
      Shows ("    " ++ entry.1.key ++ ": \x7b\n" ++ entry.2.render ++ "    \x7d;\n")
        entry.2.literals := by
    intro entry hentry
    have hhead := (shows_of_opensNothing (hmethod entry.1)).between
      (show Text.opensNothing "    " = true by decide)
      (show Text.opensNothing ": \x7b\n" = true by decide)
    have hop := h entry (ItemTypes.mem_of_mem_ordered hentry)
    exact (hhead.append (OperationTypes.shows_render hop)).followed (by decide)
  have hhead := (Text.shows_quote key).between (show Text.opensNothing "  " = true by decide)
    (show Text.opensNothing ": \x7b\n" = true by decide)
  exact (hhead.append (Text.shows_join hoperation)).followed (by decide)

theorem shows_renderItems {label : String} (hlabel : Text.opensNothing label = true)
    {items : Table ItemTypes}
    (h : ∀ entry ∈ items, ItemTypes.Stores (fun text => Closed text.toList) entry.2) :
    Shows (renderItems label items) (items.flatMap fun entry => itemLiterals entry.1 entry.2) := by
  unfold renderItems
  split
  · rename_i hempty
    rw [List.isEmpty_iff.mp hempty]
    exact shows_of_opensNothing (by decide)
  · have hhead := (shows_of_opensNothing hlabel).between
      (show Text.opensNothing "export type " = true by decide)
      (show Text.opensNothing " = \x7b\n" = true by decide)
    refine (hhead.append (Text.shows_join fun entry hentry => ?_)).followed (by decide)
    exact shows_renderItem entry.1 (h entry hentry)

theorem onOneLine_itemLiterals {items : Table ItemTypes}
    (h : ∀ entry ∈ items,
      ItemTypes.Stores (fun text => OnOneLine (Text.literals text.toList)) entry.2) :
    OnOneLine (items.flatMap fun entry => itemLiterals entry.1 entry.2) := by
  refine Text.onOneLine_flatMap fun entry hentry => ?_
  have hoperations : OnOneLine ((ItemTypes.ordered entry.2).flatMap fun e => e.2.literals) :=
    Text.onOneLine_flatMap fun e he =>
      OperationTypes.onOneLine_literals (h entry hentry e (ItemTypes.mem_of_mem_ordered he))
  exact Text.onOneLine_append_iff.mpr ⟨Text.onOneLine_quote entry.1, hoperations⟩

/-! ### Files -/

namespace Declarations

/-- The literals of the components, section by section, in order. -/
def componentLiterals (decls : Declarations) : List (List Char) :=
  decls.sections.flatMap fun stored =>
    stored.2.flatMap fun entry => Text.keyLiterals entry.1 ++ Text.literals entry.2.toList

/-- The literals of a file, in order. -/
def literals (decls : Declarations) : List (List Char) :=
  decls.enums.flatMap (fun entry => EnumDecl.literals ⟨entry.1, entry.2⟩) ++
    (Server.listType decls.servers).literals ++ decls.componentLiterals ++
    decls.paths.flatMap (fun entry => itemLiterals entry.1 entry.2) ++
    decls.webhooks.flatMap fun entry => itemLiterals entry.1 entry.2

theorem shows_renderServers (decls : Declarations) :
    Shows decls.renderServers (Server.listType decls.servers).literals := by
  unfold renderServers
  split
  · rename_i hempty
    rw [List.isEmpty_iff.mp hempty]
    exact shows_of_opensNothing (by decide)
  · exact (Server.listType_composes TypeExpr.composes_legible decls.servers).between
      (by decide) (by decide)

variable {decls : Declarations}

theorem shows_renderComponents (h : decls.Stores fun text => Closed text.toList) :
    Shows decls.renderComponents decls.componentLiterals := by
  have hkey : ∀ sec : Section, Text.opensNothing sec.key = true := by
    intro sec
    cases sec <;> decide
  have hsection : ∀ stored ∈ decls.sections, Shows
      ("  " ++ stored.1.key ++ ": \x7b\n" ++
        String.join (stored.2.map fun entry =>
          Text.field "    " (Text.propertyKey entry.1) entry.2) ++ "  \x7d;\n")
      (stored.2.flatMap fun entry =>
        Text.keyLiterals entry.1 ++ Text.literals entry.2.toList) := by
    intro stored hstored
    have hhead := (shows_of_opensNothing (hkey stored.1)).between
      (show Text.opensNothing "  " = true by decide)
      (show Text.opensNothing ": \x7b\n" = true by decide)
    refine (hhead.append (Text.shows_join fun entry hentry => ?_)).followed (by decide)
    exact Shows.field (by decide) (Text.shows_propertyKey entry.1)
      ((h.sections stored hstored entry hentry).shows rfl)
  -- sections without entries are left out, and have no literals
  have hfilter : decls.componentLiterals =
      (decls.sections.filter fun stored => !stored.2.isEmpty).flatMap fun stored =>
        stored.2.flatMap fun entry => Text.keyLiterals entry.1 ++ Text.literals entry.2.toList := by
    refine (flatMap_filter_of_nil fun stored _ hempty => ?_).symm
    have hnil : stored.2 = [] := by simpa using hempty
    rw [hnil]
    rfl
  rw [hfilter]
  unfold renderComponents
  simp only
  split
  · rename_i hempty
    rw [List.isEmpty_iff.mp hempty]
    exact shows_of_opensNothing (by decide)
  · refine (Text.shows_join fun stored hstored => ?_).between (by decide) (by decide)
    exact hsection stored (List.mem_filter.mp hstored).1

/-- The text of the declarations is meant to hold the literals of the declarations. -/
theorem shows_render (h : decls.Stores fun text => Closed text.toList)
    (henums : (Registry.mk decls.enums).Sound) : Shows decls.render decls.literals := by
  refine .append ?_ (shows_renderItems (by decide) h.webhooks)
  refine .append ?_ (shows_renderItems (by decide) h.paths)
  refine .append ?_ (shows_renderComponents h)
  refine .append ?_ decls.shows_renderServers
  refine Text.shows_join fun entry hentry => ?_
  obtain ⟨hname, hmembers⟩ := henums _ hentry
  exact EnumDecl.shows_render hname fun member hmember =>
    ⟨(hmembers member hmember).1, (hmembers member hmember).2.balanced.closed⟩

/-- No literal is broken if none of the stored types is. -/
theorem onOneLine_literals (h : decls.Stores fun text => OnOneLine (Text.literals text.toList))
    (henums : (Registry.mk decls.enums).Listed) : OnOneLine decls.literals := by
  have hvalues : OnOneLine (decls.enums.flatMap fun entry =>
      EnumDecl.literals ⟨entry.1, entry.2⟩) := by
    refine Text.onOneLine_flatMap fun entry hentry => ?_
    obtain ⟨values, hvalues⟩ := henums entry hentry
    exact Text.onOneLine_flatMap fun member hmember =>
      (EnumMember.unbroken_value hvalues hmember).onOneLine
  have hcomponents : OnOneLine decls.componentLiterals :=
    Text.onOneLine_flatMap fun stored hstored => Text.onOneLine_flatMap fun entry hentry =>
      Text.onOneLine_append_iff.mpr ⟨Text.onOneLine_keyLiterals entry.1,
        h.sections stored hstored entry hentry⟩
  simp only [literals, Text.onOneLine_append_iff]
  exact ⟨⟨⟨⟨hvalues, Server.onOneLine_literals decls.servers⟩, hcomponents⟩,
    onOneLine_itemLiterals h.paths⟩, onOneLine_itemLiterals h.webhooks⟩

end Declarations

end OpenApiTypings
