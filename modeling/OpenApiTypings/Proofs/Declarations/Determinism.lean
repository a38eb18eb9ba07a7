import OpenApiTypings.Output.Write
import OpenApiTypings.Proofs.Declarations.Order

/-!
# Generation is deterministic

What is generated for a document does not depend on the order in which its mappings list
their entries: neither the text nor the names of enums, and if the build fails, neither the
error nor the places that it names.
-/

namespace OpenApiTypings

/-! ### Texts -/

theorem lookup_render_eq {item item' : ItemTypes} (h : item.SameText item') (method : Method) :
    (List.lookup method item).map OperationTypes.render =
      (List.lookup method item').map OperationTypes.render := by
  induction h with
  | nil => rfl
  | @cons entry other _ _ hentry _ ih =>
    obtain ⟨m, op⟩ := entry
    obtain ⟨m', op'⟩ := other
    obtain ⟨rfl, htext⟩ := hentry
    rw [List.lookup_cons, List.lookup_cons]
    cases method == m with
    | true => exact congrArg some htext
    | false => exact ih

theorem renderItem_eq {item item' : ItemTypes} (h : item.SameText item') (key : String) :
    renderItem key item = renderItem key item' := by
  let text (method : Method) (body : String) : String :=
    "    " ++ method.key ++ ": \x7b\n" ++ body ++ "    \x7d;\n"
  have hordered : ∀ types : ItemTypes,
      types.ordered.map (fun entry => text entry.1 entry.2.render) =
        Method.nameOrder.filterMap fun method =>
          ((List.lookup method types).map OperationTypes.render).map (text method) := by
    intro types
    unfold ItemTypes.ordered
    rw [List.map_filterMap]
    simp only [Option.map_map]
    rfl
  have hsame : item.ordered.map (fun entry => text entry.1 entry.2.render) =
      item'.ordered.map fun entry => text entry.1 entry.2.render := by
    rw [hordered, hordered]
    simp only [lookup_render_eq h]
  exact congrArg (fun bodies => "  " ++ Text.quote key ++ ": \x7b\n" ++ String.join bodies ++
    "  \x7d;\n") hsame

/-- The same items under the same keys, as far as their texts go. -/
def ItemsSameText (items items' : Table ItemTypes) : Prop :=
  List.Forall₂ (fun entry other => entry.1 = other.1 ∧ ItemTypes.SameText entry.2 other.2)
    items items'

theorem renderItems_eq {items items' : Table ItemTypes} (h : ItemsSameText items items')
    (label : String) : renderItems label items = renderItems label items' := by
  have htexts : items.map (fun entry => renderItem entry.1 entry.2) =
      items'.map fun entry => renderItem entry.1 entry.2 := by
    refine map_eq_of_forall₂ h fun entry other hentry => ?_
    rw [hentry.1, renderItem_eq hentry.2]
  unfold renderItems
  rw [isEmpty_eq_of_forall₂ h]
  split
  · rfl
  · exact congrArg (fun texts => "export type " ++ label ++ " = \x7b\n" ++ String.join texts ++
      "\x7d;\n\n") htexts

/-- The same declarations, but for what operations and servers are stored as. -/
structure Declarations.SameText (decls decls' : Declarations) : Prop where
  sections : decls.sections = decls'.sections
  servers : List.Forall₂ Server.Reordered decls.servers decls'.servers
  paths : ItemsSameText decls.paths decls'.paths
  webhooks : ItemsSameText decls.webhooks decls'.webhooks

theorem Declarations.SameText.render_eq {decls decls' : Declarations} (h : decls.SameText decls')
    (henums : decls.enums = decls'.enums) : decls.render = decls'.render := by
  have hservers : decls.renderServers = decls'.renderServers := by
    unfold renderServers
    rw [isEmpty_eq_of_forall₂ h.servers, Server.listType_eq h.servers]
  have hcomponents : decls.renderComponents = decls'.renderComponents := by
    unfold renderComponents
    rw [h.sections]
  unfold Declarations.render
  rw [henums, hservers, hcomponents, renderItems_eq h.paths, renderItems_eq h.webhooks]

/-! ### Documents -/

namespace Document.Reordered

variable {doc doc' : Document} (h : doc.Reordered doc')
include h

theorem compileDocument :
    Build.Rel Declarations.SameText (compileDocument doc) (compileDocument doc') := by
  unfold OpenApiTypings.compileDocument
  rw [h.compileComponents]
  refine Build.Rel.behind _ fun components => ?_
  refine (h.compileItems "path" h.paths).bind fun paths paths' hpaths => ?_
  refine (h.compileItems "webhook" h.webhooks).bind fun webhooks webhooks' hwebhooks => ?_
  exact .pure ⟨rfl, h.servers, hpaths, hwebhooks⟩

theorem buildingEvent_eq : doc.buildingEvent = doc'.buildingEvent := by
  unfold Document.buildingEvent
  rw [h.openapi, h.paths.length_eq, h.webhooks.length_eq, h.schemas_reordered.length_eq]

/-- Builds of reordered documents report the same events, and fail alike or give the same enums
and the same texts. -/
theorem buildLogged : (buildLogged doc).2 = (buildLogged doc').2 ∧
    ExceptRel (fun decls decls' => decls.enums = decls'.enums ∧ decls.render = decls'.render)
      (build doc) (build doc') := by
  obtain ⟨henums, hevents, hvalue⟩ := h.compileDocument Registry.empty
  unfold build OpenApiTypings.buildLogged
  simp only [h.buildingEvent_eq, ← henums, ← hevents]
  generalize (Compilation.run (OpenApiTypings.compileDocument doc).run Registry.empty).value =
    result at hvalue ⊢
  generalize (Compilation.run (OpenApiTypings.compileDocument doc').run Registry.empty).value =
    result' at hvalue ⊢
  cases hvalue with
  | error e => exact ⟨rfl, ExceptRel.error e⟩
  | @ok decls decls' hsame =>
    have htext : Declarations.SameText
        { decls with enums := (Compilation.run (OpenApiTypings.compileDocument doc).run
          Registry.empty).enums.entries }
        { decls' with enums := (Compilation.run (OpenApiTypings.compileDocument doc).run
          Registry.empty).enums.entries } :=
      ⟨hsame.sections, hsame.servers, hsame.paths, hsame.webhooks⟩
    refine ⟨?_, ExceptRel.ok ⟨rfl, htext.render_eq rfl⟩⟩
    simp only [Declarations.builtEvent, hsame.paths.length_eq, hsame.webhooks.length_eq]

end Document.Reordered

/-- Documents that differ in the order of their entries alone give the same text or fail with
the same error, places included, and report the same events; and the enums that are declared
for them have the same names and members. -/
theorem generate_reordered {doc doc' : Document} (h : doc.Reordered doc') (banner : Banner) :
    generateLogged banner doc = generateLogged banner doc' ∧
      (build doc).map Declarations.enums = (build doc').map Declarations.enums := by
  obtain ⟨hevents, hbuild⟩ := h.buildLogged
  have hfile : (build doc).map (fun decls => decls.renderFile (banner.withVersionOf doc.openapi)) =
        (build doc').map (fun decls => decls.renderFile (banner.withVersionOf doc'.openapi)) ∧
      (build doc).map Declarations.enums = (build doc').map Declarations.enums := by
    rw [h.openapi]
    generalize build doc = outcome at hbuild ⊢
    generalize build doc' = outcome' at hbuild ⊢
    cases hbuild with
    | error e => exact ⟨rfl, rfl⟩
    | ok hsame =>
      exact ⟨congrArg (fun text => Except.ok (_ ++ text)) hsame.2, congrArg Except.ok hsame.1⟩
  exact ⟨Prod.ext hfile.1 hevents, hfile.2⟩

/-- Two schemas that ask for the same name of an enum. -/
def rivalSchemas : Table (RefOr Json) :=
  [("Status", .inline (.object [("enum", .array [.string "on", .string "off"])])),
    ("status", .inline (.object [("enum", .array [.string "open", .string "shut"])]))]

/-- A document with these schemas. -/
def rivals : Document := { components := some { schemas := rivalSchemas } }

/-- The same document, read in the other order. -/
def rivalsReversed : Document := { components := some { schemas := rivalSchemas.reverse } }

theorem rivals_reordered : rivals.Reordered rivalsReversed where
  openapi := rfl
  info := rfl
  paths := .nil
  webhooks := .nil
  components := .some {
    schemas := .of_perm (by decide) (List.reverse_perm _).symm
    responses := .nil
    requestBodies := .nil
    parameters := .nil
    headers := .nil
    securitySchemes := .nil
    pathItems := .nil }
  servers := .nil
  security := .nil

theorem generate_reordered_rivals :
    rivals.Reordered rivalsReversed ∧
      build rivals = .ok
        { schemas := [("Status", "StatusEnum"), ("status", "StatusEnum2")]
          enums := [("StatusEnum", [⟨"ON", "\"on\""⟩, ⟨"OFF", "\"off\""⟩]),
            ("StatusEnum2", [⟨"OPEN", "\"open\""⟩, ⟨"SHUT", "\"shut\""⟩])] } ∧
      generateLogged { generatedAt := ⟨0, 0⟩ } rivals =
        generateLogged { generatedAt := ⟨0, 0⟩ } rivalsReversed ∧
      (build rivals).map Declarations.enums = (build rivalsReversed).map Declarations.enums :=
  ⟨rivals_reordered, rfl, generate_reordered rivals_reordered _⟩

end OpenApiTypings
