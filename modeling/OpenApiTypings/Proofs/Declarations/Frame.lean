import OpenApiTypings.Proofs.Declarations.Build
import OpenApiTypings.Proofs.Declarations.Order

/-!
# What paths and webhooks leave alone

Components are compiled first, and from the registry that declares nothing.  So what they are
compiled to depends on the components of a document alone, and whatever is declared for paths
and webhooks afterwards adds to the registry without changing a name that is in it.
-/

namespace OpenApiTypings

/-- A step that follows another one is reached only if that one succeeded. -/
theorem Build.exists_of_bind_eq_ok {m : Build α} {f : α → Build β} {registry : Registry} {b : β}
    (h : (Compilation.run (m >>= f).run registry).value = .ok b) :
    ∃ a, (Compilation.run m.run registry).value = .ok a ∧
      Compilation.run (m >>= f).run registry =
        let first := Compilation.run m.run registry
        let second := Compilation.run (f a).run first.enums
        ⟨second.value, second.enums, first.events ++ second.events⟩ := by
  rw [ExceptT.run_bind, Compilation.run_bind] at h ⊢
  cases hvalue : (Compilation.run m.run registry).value with
  | ok a => exact ⟨a, rfl, rfl⟩
  | error error =>
    rw [hvalue] at h
    cases h

/-- The registry after the components of a document, before anything else is compiled. -/
def Document.componentEnums (doc : Document) : Registry :=
  (Compilation.run (compileComponents doc).run Registry.empty).enums

section Components

variable {doc doc' : Document}

/-- The components are the same, or the same but for the order of their entries. -/
def Document.SameComponents (doc doc' : Document) : Prop :=
  doc.components = doc'.components ∨
    Option.Rel Components.Reordered doc.components doc'.components

theorem compileComponents_congr (h : doc.SameComponents doc') :
    compileComponents doc = compileComponents doc' := by
  have halone : ∀ d : Document,
      compileComponents d = compileComponents { components := d.components } := fun _ => rfl
  rw [halone doc, halone doc']
  rcases h with heq | hreordered
  · rw [heq]
  · have hdocs : Document.Reordered { components := doc.components }
        { components := doc'.components } :=
      ⟨rfl, rfl, .nil, .nil, hreordered, .nil, .nil⟩
    exact hdocs.compileComponents

/-- Paths and webhooks keep the types of the components, and only add enums. -/
theorem compileItems_keep (doc : Document) (parts : Declarations) :
    Build.Ensures (do
      let paths ← compileItems doc "path" doc.paths
      let webhooks ← compileItems doc "webhook" doc.webhooks
      return { parts with paths, webhooks, servers := doc.servers })
      fun _ decls => decls.sections = parts.sections := by
  have hT : ∀ m, doc.Compiles m → m.Ensures fun _ _ => True := fun _ hm => hm.ensures
  refine .bind (compileItems_stores doc (T := fun _ _ => True) hT "path" doc.paths) fun _ => ?_
  refine .last (compileItems_stores doc (T := fun _ _ => True) hT "webhook" doc.webhooks) ?_
  exact fun _ _ _ _ => rfl

theorem exists_parts_of_build {decls : Declarations} (h : build doc = .ok decls) :
    ∃ parts, (Compilation.run (compileComponents doc).run Registry.empty).value = .ok parts ∧
      decls.sections = parts.sections ∧ doc.componentEnums.Reaches ⟨decls.enums⟩ := by
  rw [build_eq] at h
  cases hvalue : (Compilation.run (compileDocument doc).run Registry.empty).value with
  | error error =>
    rw [hvalue] at h
    cases h
  | ok complete =>
    rw [hvalue] at h
    cases h
    obtain ⟨parts, hparts, hrun⟩ := Build.exists_of_bind_eq_ok hvalue
    have hrun : Compilation.run (compileDocument doc).run Registry.empty = _ := hrun
    obtain ⟨hreaches, hkept⟩ := compileItems_keep doc parts doc.componentEnums
    refine ⟨parts, hparts, ?_, ?_⟩
    · rw [hrun] at hvalue
      exact hkept _ (Registry.Reaches.refl _) complete hvalue
    · rw [hrun]
      exact hreaches

/-- Documents with the same components have the same types of components, and every enum that
was declared for the components is an enum of both, with the same name and members, whatever
their paths and webhooks are. -/
theorem components_undisturbed {decls decls' : Declarations}
    (hcomponents : doc.SameComponents doc') (h : build doc = .ok decls)
    (h' : build doc' = .ok decls') :
    decls.sections = decls'.sections ∧
      ∀ name members, doc.componentEnums.members? name = some members →
        decls.enums.get? name = some members ∧ decls'.enums.get? name = some members := by
  have hsame := compileComponents_congr hcomponents
  obtain ⟨parts, hparts, hsections, hreaches⟩ := exists_parts_of_build h
  obtain ⟨parts', hparts', hsections', hreaches'⟩ := exists_parts_of_build h'
  have henums : doc'.componentEnums = doc.componentEnums := by
    unfold Document.componentEnums
    rw [hsame]
  rw [← hsame, hparts] at hparts'
  cases hparts'
  rw [henums] at hreaches'
  refine ⟨hsections.trans hsections'.symm, fun name members hfound => ?_⟩
  exact ⟨hreaches.members? hfound, hreaches'.members? hfound⟩

end Components

/-- Components with one schema, which lists two texts. -/
def statusComponents : Components :=
  { schemas := [("Status", .inline (.object [("enum", .array [.string "on", .string "off"])]))] }

/-- A path with a parameter of that name, which lists two other texts. -/
def statusPaths : Table (RefOr PathItem) :=
  [("/doors", .inline { get := some { parameters := [.inline {
    name := "status", location := "query",
    schema := some (.inline (.object [("enum", .array [.string "open", .string "shut"])])) }] } })]

/-- The parameter asks for the name that the schema has, and gets another one. -/
theorem components_undisturbed_status :
    ∃ decls decls' : Declarations,
      build { components := some statusComponents } = .ok decls ∧
        build { components := some statusComponents, paths := statusPaths } = .ok decls' ∧
        decls.enums.keys = ["StatusEnum"] ∧ decls'.enums.keys = ["StatusEnum", "StatusEnum2"] ∧
        decls.sections = decls'.sections ∧
        ∀ name members,
          (Document.componentEnums { components := some statusComponents }).members? name =
              some members →
            decls.enums.get? name = some members ∧ decls'.enums.get? name = some members := by
  have h : build { components := some statusComponents } = .ok
      { schemas := [("Status", "StatusEnum")]
        enums := [("StatusEnum", [⟨"ON", "\"on\""⟩, ⟨"OFF", "\"off\""⟩])] } := rfl
  have h' : build { components := some statusComponents, paths := statusPaths } = .ok
      { schemas := [("Status", "StatusEnum")]
        enums := [("StatusEnum", [⟨"ON", "\"on\""⟩, ⟨"OFF", "\"off\""⟩]),
          ("StatusEnum2", [⟨"OPEN", "\"open\""⟩, ⟨"SHUT", "\"shut\""⟩])]
        paths := [("/doors", [(.get, { query := [("status", ⟨"StatusEnum2", false⟩)] })])] } := rfl
  have hsame : Document.SameComponents { components := some statusComponents }
      { components := some statusComponents, paths := statusPaths } := Or.inl rfl
  exact ⟨_, _, h, h', rfl, rfl, components_undisturbed hsame h h'⟩

end OpenApiTypings
