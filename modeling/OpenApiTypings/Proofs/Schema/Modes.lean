import OpenApiTypings.Proofs.Schema.Positions

/-!
# Sides of the wire

Which side of the wire a schema is compiled for matters in two places alone: a property that
is marked is left out on one of the sides, and a reference is inlined there.  A schema with
neither has the same type and the same enums on all sides, and in every document.
-/

namespace OpenApiTypings

/-- No mapping in the value, at any depth, is marked as left out of requests or of responses. -/
def Json.Unmarked (value : Json) : Prop :=
  value.allMappings (fun mapping =>
    !(Schema.Node.mk mapping).readOnly && !(Schema.Node.mk mapping).writeOnly) = true

instance (value : Json) : Decidable value.Unmarked := inferInstanceAs (Decidable (_ = true))

namespace Schema

/-- The same place on a side of the wire. -/
def Scope.on (scope : Scope) (mode : Mode) : Scope := { scope with mode }

/-- The child that compiles everything for one side of the wire. -/
def Child.on (child : Child) (mode : Mode) : Child :=
  fun scope schema => child (scope.on mode) schema

/-! ### Nodes -/

theorem includesProperty_of_unmarked {schema : Json} (h : schema.Unmarked) (mode : Mode) :
    includesProperty mode schema = true := by
  unfold includesProperty
  cases hnode : Node.ofJson? schema with
  | none => rfl
  | some node =>
    obtain rfl := eq_object_of_ofJson? hnode
    obtain ⟨hreadOnly, hwriteOnly⟩ := Bool.and_eq_true_iff.mp (Json.allMappings_object.mp h).1
    cases mode with
    | component => rfl
    | input => exact hreadOnly
    | output => exact hwriteOnly

section Nodes

variable (child : Child) {node : Node} (scope : Scope) (mode : Mode)

/-- No property is left out, on whichever side. -/
def Node.KeepsProperties (node : Node) : Prop :=
  ∀ entry ∈ node.properties?.getD [], ∀ mode, includesProperty mode entry.2 = true

theorem compileFields_on {properties : Table Json} (required : List String)
    (hkeeps : ∀ entry ∈ properties, ∀ mode, includesProperty mode entry.2 = true) :
    compileFields child properties required (scope.on mode) =
      compileFields (child.on mode) properties required scope := by
  have hkept : ∀ mode, (Table.sorted properties).filter
      (fun entry => includesProperty mode entry.2) = Table.sorted properties :=
    fun mode => List.filter_eq_self.mpr fun entry hentry =>
      hkeeps entry (Table.mem_of_mem_sorted hentry) mode
  unfold compileFields
  rw [hkept, hkept]
  rfl

variable (hkeeps : node.KeepsProperties)
include hkeeps

theorem compileObject_on :
    compileObject child node (scope.on mode) = compileObject (child.on mode) node scope := by
  unfold compileObject
  dsimp only
  rw [compileFields_on child scope mode _ hkeeps]
  rfl

theorem compileTypeName_on (name : String) :
    compileTypeName child node (scope.on mode) name =
      compileTypeName (child.on mode) node scope name := by
  have hobject := compileObject_on child (scope.deeper 1) mode hkeeps
  unfold compileTypeName
  rw [← hobject]
  rfl

theorem compileTyped_on :
    compileTyped child node (scope.on mode) = compileTyped (child.on mode) node scope := by
  have huntyped : compileUntyped child node (scope.on mode) =
      compileUntyped (child.on mode) node scope := by
    unfold compileUntyped
    rw [← compileObject_on child (scope.deeper 1) mode hkeeps]
    rfl
  have hnames : compileTypeName child node (scope.on mode) =
      compileTypeName (child.on mode) node scope :=
    funext (compileTypeName_on child scope mode hkeeps)
  unfold compileTyped
  rw [huntyped, hnames]

/-- A node that keeps its properties hands its schemas down, and makes its type, in the same way
on all sides. -/
theorem compileNode_on :
    compileNode child node (scope.on mode) = compileNode (child.on mode) node scope := by
  unfold compileNode
  rw [compileTyped_on child scope mode hkeeps]
  rfl

end Nodes

/-! ### Schemas -/

theorem keepsProperties_of_unmarked {node : Node} (h : (Json.object node.entries).Unmarked) :
    node.KeepsProperties := by
  intro entry hentry
  cases hproperties : node.properties? with
  | none =>
    rw [hproperties] at hentry
    cases hentry
  | some properties =>
    rw [hproperties, Option.getD_some] at hentry
    exact includesProperty_of_unmarked ((Node.Nests.property hproperties hentry).allMappings h)

section Schemas

variable (schemas schemas' : Table (RefOr Json)) (mode : Mode)

/-- A node whose nested schemas are compiled alike is compiled alike. -/
theorem compileNode_agree {child child' : Child} {schema : Json} {node : Node}
    (hnode : Node.ofJson? schema = some node) (hrefs : schema.RefFree) (hmarks : schema.Unmarked)
    (hchild : ∀ scope inner, inner.RefFree → inner.Unmarked →
      child (scope.on mode) inner = child' scope inner) (scope : Scope) :
    compileNode child node (scope.on mode) = compileNode child' node scope := by
  obtain rfl := eq_object_of_ofJson? hnode
  rw [compileNode_on child scope mode (keepsProperties_of_unmarked hmarks)]
  refine compileNode_congr node scope fun part hpart => ?_
  have hnests := nests_of_mem_nodeParts hpart
  exact hchild _ _ (hnests.allMappings hrefs) (hnests.allMappings hmarks)

theorem compileNestedIn_agree (levels : Nat) (scope : Scope) (schema : Json)
    (hrefs : schema.RefFree) (hmarks : schema.Unmarked) :
    compileNestedIn schemas levels (scope.on mode) schema =
      compileNestedIn schemas' levels scope schema := by
  induction levels generalizing scope schema with
  | zero => rw [compileNestedIn, compileNestedIn]
  | succ levels ih =>
    rw [compileNestedIn, compileNestedIn, compileNestedWith, compileNestedWith]
    cases hnode : Node.ofJson? schema with
    | none => rfl
    | some node =>
      simp only [reference?_of_refFree hnode hrefs]
      rw [← compileNode_agree mode hnode hrefs hmarks ih (scope.deeper 1)]
      rfl

theorem compile_agree (scope : Scope) {schema : Json} (hrefs : schema.RefFree)
    (hmarks : schema.Unmarked) :
    compile schemas (.inline schema) (scope.on mode) = compile schemas' (.inline schema) scope := by
  have hchild : ∀ scope inner, Json.RefFree inner → Json.Unmarked inner →
      compileNested schemas (scope.on mode) inner = compileNested schemas' scope inner :=
    compileNestedIn_agree schemas schemas' mode levelCount
  rw [compile, compile, compileSlotWith, compileSlotWith]
  cases hnode : Node.ofJson? schema with
  | none => rfl
  | some node =>
    simp only [reference?_of_refFree hnode hrefs]
    rw [compileNode_agree mode hnode hrefs hmarks hchild scope]
    rfl

/-- A schema without references and without marks has one type: it is compiled alike on all
sides of the wire and in all documents, in a slot as well as nested in another schema, and
declares the same enums. -/
theorem modes_agree {schema : Json} (hrefs : schema.RefFree) (hmarks : schema.Unmarked)
    (depth : Nat) (hint : String) (mode mode' : Mode) (registry : Registry) :
    (compile schemas (.inline schema) ⟨depth, mode, hint⟩).run registry =
        (compile schemas' (.inline schema) ⟨depth, mode', hint⟩).run registry ∧
      (compileNested schemas ⟨depth, mode, hint⟩ schema).run registry =
        (compileNested schemas' ⟨depth, mode', hint⟩ schema).run registry := by
  -- the two places differ in their side alone
  have hscope : (⟨depth, mode, hint⟩ : Scope) = Scope.on ⟨depth, mode', hint⟩ mode := rfl
  have hslot := compile_agree schemas schemas' mode ⟨depth, mode', hint⟩ hrefs hmarks
  have hnested :=
    compileNestedIn_agree schemas schemas' mode levelCount ⟨depth, mode', hint⟩ schema hrefs hmarks
  rw [hscope, hslot]
  exact ⟨rfl, congrArg (Compilation.run · registry) hnested⟩

end Schemas

/-- An order whose properties need each other and depend on its kind.  A mark that says `false`
is none. -/
def orderSchema : Json :=
  .object [("type", .string "object"),
    ("properties", .object [
      ("kind", .object [("enum", .array [.string "cash", .string "card"]),
        ("readOnly", .bool false)]),
      ("lines", .object [("type", .string "array"),
        ("items", .object [("enum", .array [.string "a", .string "b"])])])]),
    ("dependentRequired", .object [("kind", .array [.string "lines"])]),
    ("patternProperties", .object [("^x-", .object [("type", .string "string")])]),
    ("if", .object [("properties", .object [("kind", .object [("const", .string "cash")])])]),
    ("then", .object [("required", .array [.string "lines"])])]

theorem modes_agree_order :
    (compile [] (.inline orderSchema) ⟨5, .input, "Order"⟩).run Registry.empty =
        (compile [("Order", .inline orderSchema)] (.inline orderSchema)
          ⟨5, .component, "Order"⟩).run Registry.empty ∧
      (compileNested [] ⟨5, .input, "Order"⟩ orderSchema).run Registry.empty =
        (compileNested [("Order", .inline orderSchema)] ⟨5, .component, "Order"⟩ orderSchema).run
          Registry.empty :=
  modes_agree [] [("Order", .inline orderSchema)] (by decide +kernel : orderSchema.RefFree)
    (by decide +kernel : orderSchema.Unmarked) 5 "Order" .input .component Registry.empty

end Schema

end OpenApiTypings
