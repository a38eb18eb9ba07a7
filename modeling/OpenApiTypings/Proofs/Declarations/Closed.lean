import OpenApiTypings.Proofs.Declarations.Build

/-!
# Declarations are closed

A type refers to components by look-ups and to enums by their names.  A reference is looked
up only after it was resolved, so the component is there to be declared; and an enum is
referred to only after its call has declared it, and keeps its name.  Look-ups of schemas
are the exception: they are written down without being followed.
-/

namespace OpenApiTypings

/-! ### What types refer to -/

/-- What a type refers to. -/
inductive Mention where
  /-- A component, looked up in its section. -/
  | component (sec : Section) (name : String)
  /-- A declared enum. -/
  | enum (name : String)
  deriving DecidableEq, Repr

namespace TypeExpr

mutual

/-- What a type refers to, anywhere in it. -/
def mentions : TypeExpr → List Mention
  | .unknown => []
  | .never => []
  | .string => []
  | .number => []
  | .boolean => []
  | .literal _ => []
  | .enumRef name => [.enum name]
  | .component sec name => [.component sec name]
  | .array item => mentions item
  | .emptyTuple => []
  | .union parts => mentionsAll parts
  | .intersection parts => mentionsAll parts
  | .object fields => mentionsFields fields
  | .record value => mentions value
  | .mapped _ value => mentions value

/-- What several types refer to. -/
def mentionsAll : List TypeExpr → List Mention
  | [] => []
  | part :: rest => mentions part ++ mentionsAll rest

/-- What the types of fields refer to. -/
def mentionsFields : List (Field TypeExpr) → List Mention
  | [] => []
  | ⟨_, type, _⟩ :: rest => mentions type ++ mentionsFields rest

end

theorem exists_of_mem_mentionsAll {parts : List TypeExpr} {mention : Mention}
    (h : mention ∈ mentionsAll parts) : ∃ part ∈ parts, mention ∈ part.mentions := by
  induction parts with
  | nil => exact absurd h List.not_mem_nil
  | cons part rest ih =>
    rcases List.mem_append.mp h with hpart | hrest
    · exact ⟨part, List.mem_cons_self .., hpart⟩
    · obtain ⟨other, hother, hmem⟩ := ih hrest
      exact ⟨other, List.mem_cons_of_mem _ hother, hmem⟩

theorem exists_of_mem_mentionsFields {fields : List (Field TypeExpr)} {mention : Mention}
    (h : mention ∈ mentionsFields fields) : ∃ f ∈ fields, mention ∈ f.type.mentions := by
  induction fields with
  | nil => exact absurd h List.not_mem_nil
  | cons f rest ih =>
    rcases List.mem_append.mp h with hf | hrest
    · exact ⟨f, List.mem_cons_self .., hf⟩
    · obtain ⟨other, hother, hmem⟩ := ih hrest
      exact ⟨other, List.mem_cons_of_mem _ hother, hmem⟩

/-- A composed type refers to what its parts refer to. -/
theorem composes_mentions (p : Mention → Prop) :
    Composes fun type => ∀ mention ∈ type.mentions, p mention where
  unknown := nofun
  never := nofun
  string := nofun
  number := nofun
  boolean := nofun
  literal _ := nofun
  emptyTuple := nofun
  array h := h
  union h mention hmention := by
    obtain ⟨part, hpart, hmem⟩ := exists_of_mem_mentionsAll hmention
    exact h part hpart mention hmem
  intersection h mention hmention := by
    obtain ⟨part, hpart, hmem⟩ := exists_of_mem_mentionsAll hmention
    exact h part hpart mention hmem
  object _ h mention hmention := by
    obtain ⟨f, hf, hmem⟩ := exists_of_mem_mentionsFields hmention
    exact h f hf mention hmem
  record h := h
  mapped _ h := h

end TypeExpr

/-! ### What the types of a document refer to -/

/-- The component is one of the document, or a schema; the enum is declared. -/
def Mention.KnownIn (doc : Document) (registry : Registry) : Mention → Prop
  | .component sec name => sec = .schemas ∨ name ∈ doc.names sec
  | .enum name => ∃ members, registry.members? name = some members

theorem Document.keptInTypes_known (doc : Document) :
    doc.KeptInTypes fun registry type =>
      ∀ mention ∈ type.mentions, mention.KnownIn doc registry where
  composes registry := TypeExpr.composes_mentions (Mention.KnownIn doc registry)
  enumRef hfound _ mention hmention := by
    obtain rfl := List.mem_singleton.mp hmention
    exact ⟨_, hfound⟩
  component registry name mention hmention := by
    obtain rfl := List.mem_singleton.mp hmention
    exact Or.inl rfl
  lookup registry sec name hname mention hmention := by
    obtain rfl := List.mem_singleton.mp hmention
    exact Or.inr hname

/-- The type is compiled for the document on the way to the registry. -/
def Document.Gives (doc : Document) (registry : Registry) (type : TypeExpr) : Prop :=
  ∃ m start, doc.Compiles m ∧ (m.run start).enums.Reaches registry ∧ (m.run start).value = type

theorem Document.ensures_gives {doc : Document} {m : Compilation TypeExpr} (h : doc.Compiles m) :
    m.Ensures fun registry type =>
      ∃ given, doc.Gives registry given ∧ type.render = given.render := by
  intro registry
  exact ⟨(h.ensures registry).1, fun later hlater => ⟨_, ⟨m, registry, h, hlater, rfl⟩, rfl⟩⟩

/-! ### Closed declarations -/

/-- Everything that the types of a document refer to is declared, schemas apart. -/
structure Declarations.ClosedFor (doc : Document) (decls : Declarations) : Prop where
  /-- What is stored is the text of a type that is compiled on the way. -/
  stored : decls.Stores fun text =>
    ∃ type, doc.Gives ⟨decls.enums⟩ type ∧ text = type.render
  /-- A look-up names an entry of its section, unless it is the look-up of a schema. -/
  lookups : ∀ type, doc.Gives ⟨decls.enums⟩ type → ∀ sec name,
    .component sec name ∈ type.mentions → sec ≠ .schemas → name ∈ decls.names sec
  /-- An enum that a type refers to is declared. -/
  enums : ∀ type, doc.Gives ⟨decls.enums⟩ type → ∀ name,
    .enum name ∈ type.mentions → ∃ members, decls.enums.get? name = some members
  /-- The enums are declared by calls, and whatever name a call gives is declared with the
  literals of its values, in order. -/
  calls : ∃ total calls, compileDocument doc = Build.ofCompilation total ∧ total.Makes calls ∧
    decls.enums = (Registry.empty.after calls).entries ∧
    ∀ i call name, calls[i]? = some call → nameAt calls i = some name →
      ∃ members, decls.enums.get? name = some members ∧
        members.map (fun member => some member.value) =
          call.values.map fun v => (Literal.ofJson? v).map Literal.render

/-- A name that a call gives stands for the literals of its values when all calls are done. -/
theorem members?_after_of_nameAt {calls : List EnumCall} {i : Nat} {call : EnumCall}
    {name : String} (hcall : calls[i]? = some call) (hname : nameAt calls i = some name) :
    ∃ members, (Registry.empty.after calls).members? name = some members ∧
      members.map (fun member => some member.value) =
        call.values.map fun v => (Literal.ofJson? v).map Literal.render := by
  obtain ⟨members, hmembers⟩ := exists_members_of_nameAt hcall hname
  obtain ⟨hlt, -⟩ := List.getElem?_eq_some_iff.mp hcall
  have hfound := members?_of_nameAt hcall hmembers hname hlt
  rw [registryBefore, List.take_length] at hfound
  exact ⟨members, hfound, (EnumMember.ofValues?_values hmembers).symm⟩

theorem exists_calls_of_build {doc : Document} {decls : Declarations}
    (h : build doc = .ok decls) :
    ∃ total calls, compileDocument doc = Build.ofCompilation total ∧ total.Makes calls ∧
      decls.enums = (Registry.empty.after calls).entries := by
  obtain ⟨calls, hdoc⟩ := compileDocument_succeedsIff doc
  rw [build_eq] at h
  by_cases hresolves : doc.Resolves
  · obtain ⟨total, htotal, hmakes⟩ := hdoc.ok hresolves
    refine ⟨total, calls, htotal, hmakes, ?_⟩
    obtain ⟨make, hmake⟩ := hmakes
    rw [htotal] at h
    cases h
    exact congrArg Registry.entries (hmake Registry.empty).1
  · obtain ⟨error, hvalue, -⟩ := hdoc.error hresolves Registry.empty
    rw [hvalue] at h
    cases h

/-- A build that succeeds gives closed declarations: only look-ups of schemas may lead
nowhere. -/
theorem build_closed {doc : Document} {decls : Declarations} (h : build doc = .ok decls) :
    decls.ClosedFor doc := by
  obtain ⟨hstores, hnames, -⟩ := stores_of_build h (T := fun registry text =>
    ∃ type, doc.Gives registry type ∧ text = type.render) fun _ hm => doc.ensures_gives hm
  have hknown : ∀ type, doc.Gives ⟨decls.enums⟩ type →
      ∀ mention ∈ type.mentions, mention.KnownIn doc ⟨decls.enums⟩ := by
    rintro type ⟨m, start, hm, hreaches, rfl⟩
    exact (doc.keptInTypes_known.compiles hm start).2 _ hreaches
  refine ⟨hstores, fun type htype sec name hmention hsec => ?_, fun type htype name hmention => ?_,
    ?_⟩
  · rcases hknown type htype _ hmention with hschemas | hname
    · exact absurd hschemas hsec
    · exact (hnames sec name).mpr hname
  · exact hknown type htype _ hmention
  · obtain ⟨total, calls, htotal, hmakes, henums⟩ := exists_calls_of_build h
    refine ⟨total, calls, htotal, hmakes, henums, fun i call name hcall hname => ?_⟩
    rw [henums]
    exact members?_after_of_nameAt hcall hname

/-- A document that refers to a response and to its header, lists the values of the header,
and refers to a schema that is not there. -/
def catalogDocument : Document where
  components := some {
    responses := [("Page", .inline { headers := [("next", .reference "#/components/headers/N")] })]
    headers := [("N", .inline {
      schema := some (.inline (.object [("enum", .array [.string "up", .string "down"])])) })] }
  paths := [("/", .inline { get := some {
    requestBody := some (.inline { content := [("text/plain",
      { schema := some (.reference "#/components/schemas/Nowhere") })] })
    responses := [("200", .reference "#/components/responses/Page")] } })]

/-- What is declared for the document. -/
def catalogDeclarations : Declarations where
  responses := [("Page",
    "\x7b\n  headers: \x7b\n    next?: Components[\"headers\"][\"N\"];\n  \x7d;\n" ++
      "  body: never;\n\x7d")]
  headers := [("N", "NEnum")]
  enums := [("NEnum", [⟨"UP", "\"up\""⟩, ⟨"DOWN", "\"down\""⟩])]
  paths := [("/", [(.get, {
    requestBody := some "Components[\"schemas\"][\"Nowhere\"]"
    responses := [("200", "Components[\"responses\"][\"Page\"]")] })])]

theorem build_closed_catalog :
    build catalogDocument = .ok catalogDeclarations ∧
      catalogDeclarations.ClosedFor catalogDocument := by
  have hbuild : build catalogDocument = .ok catalogDeclarations := rfl
  exact ⟨hbuild, build_closed hbuild⟩

end OpenApiTypings
