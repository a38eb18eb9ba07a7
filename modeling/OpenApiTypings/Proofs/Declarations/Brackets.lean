import OpenApiTypings.Declarations.Render
import OpenApiTypings.Proofs.Declarations.Build

/-!
# Brackets of the declarations

The stored types are put into fields, fields into blocks and blocks into files.  All of
it is balanced, and what stands around a type is never a part of it.
-/

namespace OpenApiTypings

open Text (Balanced)

/-! ### Keys -/

theorem Method.balanced_key (method : Method) : Balanced method.key.toList := by
  cases method <;> decide

theorem Section.balanced_key (sec : Section) : Balanced sec.key.toList := by
  cases sec <;> decide

namespace Status

/-- A code that is a number, or the default, consists of bare characters. -/
theorem isBare_of_mem_code {code : String}
    (h : ((number? code).isSome || code = "default") = true) :
    ∀ c ∈ code.toList, Text.isBare c = true := by
  rw [Bool.or_eq_true, decide_eq_true_eq] at h
  rcases h with hnumber | rfl
  · intro c hc
    have hdigits : code.toList.all Char.isDigit = true := by
      unfold number? at hnumber
      cases hall : code.toList.all Char.isDigit with
      | true => rfl
      | false => simp [hall] at hnumber
    apply Text.isBare_of_isIdentPart
    simp [Text.isIdentPart, Char.isAlphanum, List.all_eq_true.mp hdigits c hc]
  · exact List.all_eq_true.mp (by decide)

theorem balanced_key (code : String) : Balanced (key code).toList := by
  unfold key
  split
  · rename_i hbare
    exact (Text.atomic_of_bare (isBare_of_mem_code hbare)).balanced
  · exact (Text.atomic_quote code).balanced

theorem perm_insertByCode (entry : String × α) (entries : List (String × α)) :
    (insertByCode entry entries).Perm (entry :: entries) := by
  induction entries with
  | nil => exact List.Perm.refl _
  | cons other rest ih =>
    rw [insertByCode]
    split
    · exact (ih.cons other).trans (List.Perm.swap ..)
    · exact List.Perm.refl _

theorem perm_sortByCode (entries : List (String × α)) : (sortByCode entries).Perm entries := by
  induction entries with
  | nil => exact List.Perm.refl _
  | cons entry rest ih => exact (perm_insertByCode entry _).trans (ih.cons entry)

theorem mem_of_mem_sortByCode {entry : String × α} {entries : List (String × α)}
    (h : entry ∈ sortByCode entries) : entry ∈ entries :=
  (perm_sortByCode entries).mem_iff.mp h

end Status

/-! ### Operations -/

theorem balanced_renderParameters {label : String} (hlabel : Balanced label.toList)
    {parameters : Table ParameterType} (h : AtomicParameters parameters) :
    Balanced (renderParameters label parameters).toList := by
  unfold renderParameters
  split
  · decide
  · refine Text.balanced_labelled "      ".toList [';', '\n'] (by decide) (by decide) hlabel ?_
      (by decide) (by decide)
    apply Text.balanced_join
    intro piece hpiece
    obtain ⟨⟨name, parameter⟩, hmem, rfl⟩ := List.mem_map.mp hpiece
    refine Text.balanced_field (by decide) ?_ (h _ hmem).balanced
    simp only [Field.key, String.toList_append]
    refine (Text.atomic_propertyKey name).balanced.append ?_
    split <;> decide

theorem balanced_renderListField {key : String} (hkey : Balanced key.toList)
    {listType : List α → TypeExpr} {entries : List α} (h : (listType entries).Atomic) :
    Balanced (renderListField key listType entries).toList := by
  unfold renderListField
  split
  · decide
  · exact Text.balanced_field (by decide) hkey h.balanced

namespace OperationTypes

theorem Atomic.balanced_renderRequestBody {op : OperationTypes} (h : op.Atomic) :
    Balanced op.renderRequestBody.toList := by
  unfold renderRequestBody
  split
  · decide
  · rename_i body hbody
    exact Text.balanced_field (by decide) (by decide) (h.requestBody body hbody).balanced

theorem Atomic.balanced_renderResponses {op : OperationTypes} (h : op.Atomic) :
    Balanced op.renderResponses.toList := by
  refine Text.balanced_block "      responses: ".toList "      ".toList [';', '\n']
    (by decide) (by decide) (by decide) ?_ (by decide) (by decide)
  apply Text.balanced_join
  intro piece hpiece
  obtain ⟨⟨code, type⟩, hmem, rfl⟩ := List.mem_map.mp hpiece
  exact Text.balanced_field (by decide) (Status.balanced_key code)
    (h.responses _ (Status.mem_of_mem_sortByCode hmem)).balanced

theorem Atomic.balanced_render {op : OperationTypes} (h : op.Atomic) :
    Balanced op.render.toList := by
  unfold render
  simp only [String.toList_append]
  apply Text.Balanced.append _ h.balanced_renderResponses
  apply Text.Balanced.append _ h.balanced_renderRequestBody
  have hservers := Server.atomic_listType op.servers
  apply Text.Balanced.append _ (balanced_renderListField (by decide) hservers)
  have hsecurity := SecurityRequirement.atomic_listType op.security
  apply Text.Balanced.append _ (balanced_renderListField (by decide) hsecurity)
  apply Text.Balanced.append _ (balanced_renderParameters (by decide) h.cookie)
  apply Text.Balanced.append _ (balanced_renderParameters (by decide) h.header)
  exact (balanced_renderParameters (by decide) h.path).append
    (balanced_renderParameters (by decide) h.query)

end OperationTypes

/-! ### Items -/

theorem ItemTypes.mem_of_mem_ordered {item : ItemTypes} {entry : Method × OperationTypes}
    (h : entry ∈ ItemTypes.ordered item) : entry ∈ item := by
  obtain ⟨method, -, hsome⟩ := List.mem_filterMap.mp h
  obtain ⟨op, hop, rfl⟩ := Option.map_eq_some_iff.mp hsome
  obtain ⟨front, back, heq, -⟩ := List.lookup_eq_some_iff.mp hop
  rw [heq]
  exact List.mem_append_right _ (List.mem_cons_self ..)

theorem balanced_renderItem (key : String) {item : ItemTypes} (h : ItemTypes.Atomic item) :
    Balanced (renderItem key item).toList := by
  refine Text.balanced_labelled "  ".toList [';', '\n'] (by decide) (by decide)
    (Text.atomic_quote key).balanced ?_ (by decide) (by decide)
  apply Text.balanced_join
  intro piece hpiece
  obtain ⟨⟨method, op⟩, hmem, rfl⟩ := List.mem_map.mp hpiece
  exact Text.balanced_labelled "    ".toList [';', '\n'] (by decide) (by decide)
    method.balanced_key (h _ (ItemTypes.mem_of_mem_ordered hmem)).balanced_render (by decide)
    (by decide)

theorem balanced_renderItems {label : String} (hlabel : Balanced label.toList)
    {items : Table ItemTypes} (h : ∀ entry ∈ items, ItemTypes.Atomic entry.2) :
    Balanced (renderItems label items).toList := by
  unfold renderItems
  split
  · decide
  · have hopening : ("export type " ++ label ++ " = \x7b\n").toList =
        ("export type ".toList ++ label.toList ++ " = ".toList) ++ ['\x7b', '\n'] := by
      simp only [String.toList_append, List.append_assoc]
      rfl
    refine Text.balanced_block _ [] [';', '\n', '\n'] hopening (by decide) ?_ ?_ (by decide)
      (by decide)
    · exact ((by decide : Balanced "export type ".toList).append hlabel).append (by decide)
    · apply Text.balanced_join
      intro piece hpiece
      obtain ⟨⟨key, item⟩, hmem, rfl⟩ := List.mem_map.mp hpiece
      exact balanced_renderItem key (h _ hmem)

/-! ### Files -/

namespace Declarations

theorem balanced_renderServers (decls : Declarations) :
    Balanced decls.renderServers.toList := by
  unfold renderServers
  split
  · decide
  · simp only [String.toList_append]
    apply Balanced.append _ (by decide)
    exact (by decide : Balanced "export type Servers = ".toList).append
      (Server.atomic_listType decls.servers).balanced

theorem Atomic.balanced_renderComponents {decls : Declarations} (h : decls.Atomic) :
    Balanced decls.renderComponents.toList := by
  unfold renderComponents
  simp only
  split
  · decide
  · refine Text.balanced_block "export type Components = ".toList [] [';', '\n', '\n']
      (by decide) (by decide) (by decide) ?_ (by decide) (by decide)
    apply Text.balanced_join
    intro piece hpiece
    obtain ⟨⟨sec, entries⟩, hmem, rfl⟩ := List.mem_map.mp hpiece
    have hentries := h.sections _ (List.mem_filter.mp hmem).1
    refine Text.balanced_labelled "  ".toList [';', '\n'] (by decide) (by decide)
      sec.balanced_key ?_ (by decide) (by decide)
    apply Text.balanced_join
    intro line hline
    obtain ⟨⟨name, type⟩, hentry, rfl⟩ := List.mem_map.mp hline
    exact Text.balanced_field (by decide) (Text.atomic_propertyKey name).balanced
      (hentries _ hentry).balanced

/-- Atomic types and sound enums are written in balanced text. -/
theorem Atomic.balanced_render {decls : Declarations} (h : decls.Atomic)
    (henums : (Registry.mk decls.enums).Sound) : Balanced decls.render.toList := by
  unfold render
  simp only [String.toList_append]
  apply Balanced.append _ (balanced_renderItems (by decide) h.webhooks)
  apply Balanced.append _ (balanced_renderItems (by decide) h.paths)
  apply Balanced.append _ h.balanced_renderComponents
  apply Balanced.append _ decls.balanced_renderServers
  apply Text.balanced_join
  intro piece hpiece
  obtain ⟨⟨name, members⟩, hmem, rfl⟩ := List.mem_map.mp hpiece
  obtain ⟨hname, hmembers⟩ := henums _ hmem
  exact EnumDecl.balanced_render hname hmembers

end Declarations

/-- A build that succeeds stores atomic types alone, servers and security requirements
have atomic types, and the file behind the banner is balanced. -/
theorem build_atomic {doc : Document} {decls : Declarations} (h : build doc = .ok decls) :
    decls.Atomic ∧ (∀ servers, (Server.listType servers).Atomic) ∧
      (∀ requirements, (SecurityRequirement.listType requirements).Atomic) ∧
        Balanced decls.render.toList := by
  obtain ⟨hatomic, henums⟩ := build_stored h
  exact ⟨hatomic, Server.atomic_listType, SecurityRequirement.atomic_listType,
    hatomic.balanced_render henums⟩

/-- A component schema with two branches. -/
theorem build_atomic_union :
    build { components := some { schemas := [("Name", .inline (.object [("oneOf", .array
        [.object [("type", .string "string")], .object [("type", .string "null")]])]))] } } =
      .ok { schemas := [("Name", "(string | null)")] } ∧
    Declarations.Atomic { schemas := [("Name", "(string | null)")] } ∧
      (∀ servers, (Server.listType servers).Atomic) ∧
      (∀ requirements, (SecurityRequirement.listType requirements).Atomic) ∧
        Balanced (Declarations.render { schemas := [("Name", "(string | null)")] }).toList := by
  have hbuild : build { components := some { schemas := [("Name", .inline (.object [("oneOf",
      .array [.object [("type", .string "string")], .object [("type", .string "null")]])]))] } } =
      .ok { schemas := [("Name", "(string | null)")] } := by
    rfl
  exact ⟨hbuild, build_atomic hbuild⟩

end OpenApiTypings
