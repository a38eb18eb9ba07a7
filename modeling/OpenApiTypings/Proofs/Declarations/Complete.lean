import OpenApiTypings.Proofs.Declarations.Sections

/-!
# Nothing declared is lost or invented

What a build gives is paired with what a document declares, level by level: sections with
sections, items with the items that paths and webhooks lead to, operations with operations,
and responses with responses.  On every level the keys are the same, each of them once, except
that an item without operations is left out.
-/

namespace OpenApiTypings

/-! ### What is declared on each level -/

/-- The types are those of the operation: it has these responses, and a body if there is one. -/
structure OperationTypes.Declares (types : OperationTypes) (op : Operation) : Prop where
  responses : ListsExactly types.responses.keys (· ∈ op.responses.keys)
  requestBody : types.requestBody.isSome ↔ op.requestBody.isSome

/-- The types are those of the item: it has operations of these methods. -/
structure ItemTypes.Declares (types : ItemTypes) (item : PathItem) : Prop where
  methods : ListsExactly (types.map Prod.fst) fun method => (item.operation? method).isSome
  operations : ∀ entry ∈ types, ∃ op, item.operation? entry.1 = some op ∧ entry.2.Declares op

/-- The table has the items that the slots lead to, but for those without operations.  A key that
is repeated among the slots stands for its last slot. -/
structure DeclaresItems (doc : Document) (compiled : Table ItemTypes)
    (items : Table (RefOr PathItem)) : Prop where
  keys : ListsExactly compiled.keys fun key => ∃ slot item, (key, slot) ∈ Table.sorted items ∧
    resolve .pathItem doc slot = .ok item ∧ ∃ method, (item.operation? method).isSome
  items : ∀ entry ∈ compiled, entry.2 ≠ [] ∧ ∃ slot item, (entry.1, slot) ∈ Table.sorted items ∧
    resolve .pathItem doc slot = .ok item ∧ entry.2.Declares item

/-- The declarations have everything that the document declares, and nothing else. -/
structure Declarations.CompleteFor (decls : Declarations) (doc : Document) : Prop where
  sections : ∀ sec, ListsExactly (decls.names sec) (· ∈ doc.names sec)
  paths : DeclaresItems doc decls.paths doc.paths
  webhooks : DeclaresItems doc decls.webhooks doc.webhooks

/-! ### Operations -/

section Compiled

variable (doc : Document)

theorem compileRequestBody_declares (method : Method) (op : Operation) :
    Build.Ensures (compileRequestBody doc method op) fun _ body? =>
      body?.isSome ↔ op.requestBody.isSome := by
  unfold compileRequestBody
  cases op.requestBody with
  | none => exact Build.Ensures.pure fun _ => Iff.rfl
  | some slot =>
    refine Build.Ensures.assume (.ofResolved _) fun body hbody => ?_
    exact .last (.ofCompilation (Document.Compiles.requestBody method hbody).ensures)
      fun _ _ _ => Iff.rfl

theorem compileResponses_declares (method : Method) (op : Operation) :
    Build.Ensures (compileResponses doc method op) fun _ responses =>
      ListsExactly responses.keys (· ∈ op.responses.keys) := by
  refine (Build.Ensures.mapM (Q := fun (entry : String × RefOr Response) _
    (stored : String × String) => stored.1 = entry.1) ?_).mono
    fun _ _ => Table.listsExactly_of_forall₂ fun _ _ hentry => hentry
  rintro ⟨code, slot⟩ -
  refine .assume (.ofResolved _) fun response hresponse => ?_
  exact .last (.ofCompilation (Document.Compiles.response method code hresponse).ensures)
    fun _ _ _ => rfl

theorem compileParameters_ensures (slots : List (RefOr Parameter)) :
    Build.Ensures (compileParameters doc slots) fun _ _ => True :=
  (compileParameters_stores doc (T := fun _ _ => True) (fun _ hm => hm.ensures) slots).mono
    fun _ _ _ => trivial

theorem compileOperation_declares (item : PathItem) (shared : ParameterTable) (method : Method)
    (op : Operation) :
    Build.Ensures (compileOperation doc item shared method op) fun _ types =>
      types.Declares op := by
  unfold compileOperation
  refine Build.Ensures.bind (.inside _ (compileParameters_ensures doc op.parameters))
    fun own => ?_
  refine .bind (.ofCompilation (noteDropped_makes _).ensures) fun _ => ?_
  refine .bind (.inside _ (compileRequestBody_declares doc method op)) fun requestBody => ?_
  refine .last (.inside _ (compileResponses_declares doc method op)) ?_
  intro _ responses hresponses hrequestBody _ _
  exact ⟨hresponses, hrequestBody⟩

/-! ### Items -/

/-- The methods of the operations that an item declares, each of them once. -/
theorem PathItem.listsExactly_methods (item : PathItem) :
    ListsExactly (item.operations.map Prod.fst) fun method =>
      (item.operation? method).isSome := by
  constructor
  · have hmethods : item.operations.map Prod.fst =
        Method.compileOrder.filter fun method => (item.operation? method).isSome := by
      unfold PathItem.operations
      induction Method.compileOrder with
      | nil => rfl
      | cons method rest ih =>
        cases hop : item.operation? method <;> simp [hop, ih]
    rw [hmethods]
    exact List.Nodup.filter _ (by decide)
  · intro method
    change method ∈ item.operations.map Prod.fst ↔ (item.operation? method).isSome = true
    rw [Option.isSome_iff_exists]
    constructor
    · intro hmem
      obtain ⟨⟨_, op⟩, hop, rfl⟩ := List.mem_map.mp hmem
      exact ⟨op, PathItem.mem_operations.mp hop⟩
    · rintro ⟨op, hop⟩
      exact List.mem_map.mpr ⟨(method, op), PathItem.mem_operations.mpr hop, rfl⟩

theorem compileItem_declares (item : PathItem) :
    Build.Ensures (compileItem doc item) fun _ types => types.Declares item := by
  unfold compileItem
  refine Build.Ensures.bind (compileParameters_ensures doc item.parameters) fun shared => ?_
  refine (Build.Ensures.mapM (Q := fun (entry : Method × Operation) _
    (stored : Method × OperationTypes) => stored.1 = entry.1 ∧ stored.2.Declares entry.2) ?_).mono
    ?_
  · rintro ⟨method, op⟩ -
    exact .last (compileOperation_declares doc item shared method op) fun _ _ h => ⟨rfl, h⟩
  · intro _ types htypes _
    have hmethods : types.map Prod.fst = item.operations.map Prod.fst :=
      (map_eq_of_forall₂ htypes fun _ _ hentry => hentry.1.symm).symm
    refine ⟨hmethods ▸ item.listsExactly_methods, fun stored hstored => ?_⟩
    obtain ⟨⟨method, op⟩, hentry, hmethod, hdeclares⟩ := exists_left_of_mem htypes hstored
    exact ⟨op, hmethod ▸ PathItem.mem_operations.mp hentry, hdeclares⟩

/-- What became of a slot: the types of its item, or nothing when that declares no operation. -/
def SlotDeclared (doc : Document) (entry : String × RefOr PathItem) :
    Option (String × ItemTypes) → Prop
  | some (key, types) => key = entry.1 ∧ types ≠ [] ∧
      ∃ item, resolve .pathItem doc entry.2 = .ok item ∧ types.Declares item
  | none => ∃ item, resolve .pathItem doc entry.2 = .ok item ∧
      ∀ method, item.operation? method = none

theorem compileItems_slotDeclared (label : String) (items : Table (RefOr PathItem)) :
    Build.Ensures (compileItems doc label items) fun _ compiled =>
      ∃ slots, List.Forall₂ (SlotDeclared doc) (Table.sorted items) slots ∧
        compiled = slots.filterMap id := by
  unfold compileItems
  refine Build.Ensures.last (.mapM (Q := fun entry _ slot? => SlotDeclared doc entry slot?) ?_)
    fun _ slots hslots => ⟨slots, hslots, rfl⟩
  rintro ⟨key, slot⟩ -
  -- The item is bound where failures name the key, so what follows knows it by its types only.
  refine Build.Ensures.assume (P := fun types : ItemTypes => ∃ item,
    resolve .pathItem doc slot = .ok item ∧ types.Declares item) (.inside _ ?_) ?_
  · refine Build.Ensures.assume (.ofResolved _) fun item hitem => ?_
    exact (compileItem_declares doc item).mono fun _ types htypes => ⟨item, hitem, htypes⟩
  · rintro types ⟨item, hitem, htypes⟩
    split
    · rename_i hempty
      have hnone : ∀ method, item.operation? method = none := by
        intro method
        have hlisted := htypes.methods.2 method
        rw [List.isEmpty_iff.mp hempty] at hlisted
        simpa using hlisted
      refine Build.Ensures.last (Q := fun _ _ => True) ?_ fun _ _ _ => ⟨item, hitem, hnone⟩
      exact .ofCompilation (Compilation.Makes.note _).ensures
    · rename_i hnonempty
      refine Build.Ensures.pure fun _ => ⟨rfl, ?_, item, hitem, htypes⟩
      exact fun hnil => hnonempty (List.isEmpty_iff.mpr hnil)

end Compiled

theorem keys_sublist_of_slotDeclared {doc : Document} {entries : Table (RefOr PathItem)}
    {slots : List (Option (String × ItemTypes))}
    (h : List.Forall₂ (SlotDeclared doc) entries slots) :
    (Table.keys (slots.filterMap id)).Sublist entries.keys := by
  induction h with
  | nil => exact List.Sublist.refl _
  | @cons entry slot? _ _ hentry _ ih =>
    cases slot? with
    | none => exact ih.cons _
    | some stored =>
      obtain ⟨key, types⟩ := stored
      obtain rfl : key = entry.1 := hentry.1
      exact ih.cons_cons _

theorem declaresItems_of_slotDeclared {doc : Document} {items : Table (RefOr PathItem)}
    {slots : List (Option (String × ItemTypes))}
    (h : List.Forall₂ (SlotDeclared doc) (Table.sorted items) slots) :
    DeclaresItems doc (slots.filterMap id) items := by
  have hsource : ∀ entry ∈ slots.filterMap id, entry.2 ≠ [] ∧ ∃ slot item,
      (entry.1, slot) ∈ Table.sorted items ∧ resolve .pathItem doc slot = .ok item ∧
        entry.2.Declares item := by
    intro entry hentry
    obtain ⟨_, hslot, rfl⟩ := List.mem_filterMap.mp hentry
    obtain ⟨⟨key, slot⟩, hmem, hkey, hne, item, hitem, hdeclares⟩ := exists_left_of_mem h hslot
    exact ⟨hne, slot, item, hkey ▸ hmem, hitem, hdeclares⟩
  refine ⟨⟨?_, fun key => ⟨fun hkey => ?_, ?_⟩⟩, hsource⟩
  · exact (keys_sublist_of_slotDeclared h).nodup (Table.nodup_keys_sorted items)
  · obtain ⟨⟨key, types⟩, hentry, rfl⟩ := List.mem_map.mp hkey
    obtain ⟨hne, slot, item, hmem, hitem, hdeclares⟩ := hsource _ hentry
    obtain ⟨first, hfirst⟩ := List.exists_mem_of_ne_nil types hne
    exact ⟨slot, item, hmem, hitem, first.1,
      (hdeclares.methods.2 first.1).mp (List.mem_map_of_mem hfirst)⟩
  · rintro ⟨slot, item, hmem, hitem, method, hmethod⟩
    obtain ⟨slot?, hslot, hdeclared⟩ := exists_right_of_mem h hmem
    cases slot? with
    | none =>
      obtain ⟨item', hitem', hnone⟩ := hdeclared
      cases hitem.symm.trans hitem'
      rw [hnone method] at hmethod
      cases hmethod
    | some stored =>
      obtain ⟨key', types⟩ := stored
      obtain rfl : key' = key := hdeclared.1
      exact List.mem_map.mpr ⟨(key', types), List.mem_filterMap.mpr ⟨_, hslot, rfl⟩, rfl⟩

theorem compileItems_declares (doc : Document) (label : String) (items : Table (RefOr PathItem)) :
    Build.Ensures (compileItems doc label items) fun _ compiled =>
      DeclaresItems doc compiled items := by
  refine (compileItems_slotDeclared doc label items).mono ?_
  rintro _ _ ⟨slots, hslots, rfl⟩
  exact declaresItems_of_slotDeclared hslots

/-! ### Documents -/

theorem compileDocument_declares (doc : Document) :
    Build.Ensures (compileDocument doc) fun _ decls =>
      DeclaresItems doc decls.paths doc.paths ∧ DeclaresItems doc decls.webhooks doc.webhooks := by
  have hT : ∀ m, doc.Compiles m → m.Ensures fun _ _ => True := fun _ hm => hm.ensures
  refine Build.Ensures.bind (compileComponents_stores doc (T := fun _ _ => True) hT)
    fun components => ?_
  refine .bind (compileItems_declares doc "path" doc.paths) fun paths => ?_
  refine .last (compileItems_declares doc "webhook" doc.webhooks) ?_
  exact fun _ _ hwebhooks hpaths _ => ⟨hpaths, hwebhooks⟩

/-- A build that succeeds declares what the document declares, and nothing else. -/
theorem build_complete {doc : Document} {decls : Declarations} (h : build doc = .ok decls) :
    decls.CompleteFor doc := by
  obtain ⟨stored, heq, ⟨hpaths, hwebhooks⟩, -⟩ :=
    exists_of_build h (compileDocument_declares doc)
  refine ⟨listsExactly_names_of_build h, ?_, ?_⟩
  · rw [heq]
    exact hpaths
  · rw [heq]
    exact hwebhooks

/-- A document with a path that leads to an item of the components, a path without operations and
a webhook. -/
def pingsDocument : Document where
  components := some {
    responses := [("Gone", .inline {})]
    requestBodies := [("Note", .inline {})]
    pathItems := [("Pings", .inline {
      get := some { responses := [("410", .reference "#/components/responses/Gone"),
        ("200", .inline {})] }
      trace := some {}
      post := some { requestBody := some (.reference "#/components/requestBodies/Note") } })] }
  paths := [("/pings", .reference "#/components/pathItems/Pings"), ("/idle", .inline {})]
  webhooks := [("pinged", .inline { put := some {} })]

/-- What is declared for the document. -/
def pingsDeclarations : Declarations where
  responses := [("Gone", "never")]
  requestBodies := [("Note", "unknown")]
  paths := [("/pings", [
    (.get, { responses := [("200", "never"), ("410", "Components[\"responses\"][\"Gone\"]")] }),
    (.post, { requestBody := some "Components[\"requestBodies\"][\"Note\"]" }),
    (.trace, {})])]
  webhooks := [("pinged", [(.put, {})])]

theorem build_complete_pings :
    build pingsDocument = .ok pingsDeclarations ∧ pingsDeclarations.CompleteFor pingsDocument := by
  have hbuild : build pingsDocument = .ok pingsDeclarations := rfl
  exact ⟨hbuild, build_complete hbuild⟩

end OpenApiTypings
