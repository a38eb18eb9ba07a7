import OpenApiTypings.Proofs.Declarations.Failures

/-!
# Entries that refer to entries

An entry of a section that is a reference into the section itself is followed as a reference
from elsewhere is.  So it is compiled as a copy of the object it refers to, and only a second
reference on the way, be it behind the entry or before it, is refused.
-/

namespace OpenApiTypings

/-- The entry under the name is a reference to the entry of the same section under the target. -/
structure ComponentKind.Alias (kind : ComponentKind α) (doc : Document) (components : Components)
    (name pointer target : String) : Prop where
  keys : (kind.entries components).keys.Nodup
  entry : (kind.entries components).get? name = some (.reference pointer)
  components : doc.components = some components
  target : kind.sec.nameIn? pointer = some target

section Alias

variable {α : Type} {kind : ComponentKind α} {doc : Document} {components : Components}
  {name pointer target : String}

/-! ### References into the section -/

theorem resolve_reference_eq_ok (hcomponents : doc.components = some components)
    (htarget : kind.sec.nameIn? pointer = some target) {value : α} :
    resolve kind doc (.reference pointer) = .ok value ↔
      (kind.entries components).get? target = some (.inline value) := by
  unfold resolve
  simp only [htarget, hcomponents]
  rcases (kind.entries components).get? target with _ | (found | nested) <;> simp

theorem resolve_reference_nested (hcomponents : doc.components = some components)
    (htarget : kind.sec.nameIn? pointer = some target) {nested : String}
    (hnested : (kind.entries components).get? target = some (.reference nested)) :
    resolve kind doc (.reference pointer) = .error (.nestedReference kind.sec nested) := by
  unfold resolve
  simp only [htarget, hcomponents, hnested]

/-! ### What becomes of the entry -/

namespace ComponentKind.Alias

variable {compile : String → α → Compilation TypeExpr}

theorem mem_sorted (h : kind.Alias doc components name pointer target) :
    (name, .reference pointer) ∈ Table.sorted (kind.entries components) :=
  Table.mem_sorted_of_nodup h.keys (Table.mem_of_get? h.entry)

theorem resolves_iff (h : kind.Alias doc components name pointer target) :
    Slot.Resolves ⟨kind, .reference pointer⟩ doc ↔
      ∃ value, (kind.entries components).get? target = some (.inline value) :=
  exists_congr fun _ => resolve_reference_eq_ok h.components h.target

theorem exists_build_iff (h : kind.Alias doc components name pointer target)
    (hkind : kind.CompiledBy doc compile) :
    (∃ decls, build doc = .ok decls) ↔
      (∃ value, (kind.entries components).get? target = some (.inline value)) ∧
        ∀ other, doc.Follows other → other ≠ ⟨kind, .reference pointer⟩ → other.Resolves doc := by
  rw [← h.resolves_iff, exists_build_iff_follows]
  constructor
  · intro hresolves
    exact ⟨hresolves _ (.component h.components hkind h.mem_sorted),
      fun other hother _ => hresolves other hother⟩
  · rintro ⟨hresolves, hothers⟩ slot hslot
    by_cases heq : slot = ⟨kind, .reference pointer⟩
    · subst heq
      exact hresolves
    · exact hothers slot hslot heq

/-- When the build succeeds, the entry is compiled as the object it refers to. -/
theorem mem_table (h : kind.Alias doc components name pointer target)
    (hkind : kind.CompiledBy doc compile) {decls : Declarations} (hbuild : build doc = .ok decls) :
    ∃ value start, (kind.entries components).get? target = some (.inline value) ∧
      ((compile name value).run start).enums.Reaches ⟨decls.enums⟩ ∧
      (name, ((compile name value).run start).value.render) ∈ decls.table kind.sec := by
  have hcompiled := (sectionsFrom_of_build hbuild h.components).compiled hkind
  obtain ⟨⟨_, _⟩, hstored, hname, value, start, hvalue, hreaches, htext⟩ :=
    exists_right_of_mem hcompiled h.mem_sorted
  dsimp only at hname htext
  subst hname htext
  exact ⟨value, start, (resolve_reference_eq_ok h.components h.target).mp hvalue, hreaches,
    hstored⟩

/-- A reference behind the entry is refused. -/
theorem exists_nestedReference (h : kind.Alias doc components name pointer target)
    (hkind : kind.CompiledBy doc compile) {nested : String}
    (hnested : (kind.entries components).get? target = some (.reference nested))
    (hothers : ∀ other, doc.Follows other → other ≠ ⟨kind, .reference pointer⟩ →
      other.Resolves doc) :
    ∃ error, build doc = .error error ∧ error.cause = .nestedReference kind.sec nested := by
  have hresolve := resolve_reference_nested h.components h.target hnested
  have hfollows : doc.Follows ⟨kind, .reference pointer⟩ :=
    .component h.components hkind h.mem_sorted
  obtain ⟨error, herror⟩ := exists_error_of_follows hfollows (by
    rintro ⟨value, hvalue⟩
    cases hvalue.symm.trans hresolve)
  refine ⟨error, herror, ?_⟩
  -- No other slot leads nowhere, so the build has failed for this one.
  obtain ⟨slot, hslot, hcause⟩ := blames_of_build herror
  by_cases heq : slot = ⟨kind, .reference pointer⟩
  · subst heq
    exact Except.error.inj (hcause.symm.trans hresolve)
  · obtain ⟨value, hvalue⟩ := hothers slot hslot heq
    cases hvalue.symm.trans hcause

/-- A reference before the entry is refused. -/
theorem exists_error_of_reference (h : kind.Alias doc components name pointer target)
    {through : String} (hthrough : kind.sec.nameIn? through = some name)
    (hfollows : doc.Follows ⟨kind, .reference through⟩) : ∃ error, build doc = .error error := by
  have hresolve := resolve_reference_nested h.components hthrough h.entry
  refine exists_error_of_follows hfollows ?_
  rintro ⟨value, hvalue⟩
  cases hvalue.symm.trans hresolve

end ComponentKind.Alias

/-- An entry that refers to an entry of its own section does not make a build fail: the build
succeeds just when an object stands in place where the entry refers to and every other slot that
is followed leads to an object, and then the entry has the text of that object.  What makes it
fail is a second reference, behind the entry or before it. -/
theorem build_alias (h : kind.Alias doc components name pointer target)
    {compile : String → α → Compilation TypeExpr} (hkind : kind.CompiledBy doc compile) :
    ((∃ decls, build doc = .ok decls) ↔
      (∃ value, (kind.entries components).get? target = some (.inline value)) ∧
        ∀ other, doc.Follows other → other ≠ ⟨kind, .reference pointer⟩ → other.Resolves doc) ∧
    (∀ decls, build doc = .ok decls →
      ∃ value start, (kind.entries components).get? target = some (.inline value) ∧
        ((compile name value).run start).enums.Reaches ⟨decls.enums⟩ ∧
        (name, ((compile name value).run start).value.render) ∈ decls.table kind.sec) ∧
    (∀ nested, (kind.entries components).get? target = some (.reference nested) →
      (∀ other, doc.Follows other → other ≠ ⟨kind, .reference pointer⟩ → other.Resolves doc) →
        ∃ error, build doc = .error error ∧ error.cause = .nestedReference kind.sec nested) ∧
    ∀ through, kind.sec.nameIn? through = some name → doc.Follows ⟨kind, .reference through⟩ →
      ∃ error, build doc = .error error :=
  ⟨h.exists_build_iff hkind, fun _ hbuild => h.mem_table hkind hbuild,
    fun _ hnested hothers => h.exists_nestedReference hkind hnested hothers,
    fun _ hthrough hfollows => h.exists_error_of_reference hthrough hfollows⟩

end Alias

/-- A document with a response that refers to another one. -/
def aliasDocument : Document where
  components := some {
    responses := [("Alias", .reference "#/components/responses/Ok"), ("Ok", .inline {})] }

/-- What is declared for the document. -/
def aliasDeclarations : Declarations where
  responses := [("Alias", "never"), ("Ok", "never")]

/-- A document with a response that refers to itself. -/
def loopDocument : Document where
  components := some { responses := [("Loop", .reference "#/components/responses/Loop")] }

theorem eq_loop_of_follows {slot : Slot} (h : loopDocument.Follows slot) :
    slot = ⟨.response, .reference "#/components/responses/Loop"⟩ := by
  have hitem : ∀ item, ¬ loopDocument.HasItem item := by
    rintro item ⟨entry, hpath | hwebhook, -⟩
    · cases hpath
    · cases hwebhook
  cases h with
  | component hcomponents hkind hentry =>
    cases hcomponents
    cases hkind with
    | response =>
      cases hentry with
      | head => rfl
      | tail _ hrest => cases hrest
    | requestBody => cases hentry
    | parameter => cases hentry
    | header => cases hentry
    | securityScheme => cases hentry
  | path hentry => cases hentry
  | webhook hentry => cases hentry
  | itemParameter hhas => exact absurd hhas (hitem _)
  | parameter hhas => exact absurd hhas (hitem _)
  | requestBody hhas => exact absurd hhas (hitem _)
  | response hhas => exact absurd hhas (hitem _)

theorem build_alias_responses :
    (∃ value start, Table.get? [("Alias", .reference "#/components/responses/Ok"),
        ("Ok", .inline {})] "Ok" = some (RefOr.inline value) ∧
      ((Response.compile aliasDocument "Alias" value).run start).enums.Reaches ⟨[]⟩ ∧
      ("Alias", ((Response.compile aliasDocument "Alias" value).run start).value.render) ∈
        aliasDeclarations.table .responses) ∧
    ∃ error, build loopDocument = .error error ∧
      error.cause = .nestedReference .responses "#/components/responses/Loop" := by
  constructor
  · have halias : ComponentKind.response.Alias aliasDocument _ "Alias" _ "Ok" :=
      ⟨by decide, rfl, rfl, by decide +kernel⟩
    exact (build_alias halias .response).2.1 aliasDeclarations rfl
  · have halias : ComponentKind.response.Alias loopDocument _ "Loop" _ "Loop" :=
      ⟨by decide, rfl, rfl, by decide +kernel⟩
    refine (build_alias halias .response).2.2.1 _ rfl ?_
    exact fun other hother hne => absurd (eq_loop_of_follows hother) hne

/-- A response that refers to another one is declared as a copy of it. -/
theorem not_build_alias_rejected :
    ¬ ∀ (doc : Document) (components : Components) (name pointer target : String),
      ComponentKind.response.Alias doc components name pointer target →
        ∃ error, build doc = .error error := by
  intro h
  obtain ⟨error, herror⟩ := h aliasDocument _ "Alias" _ "Ok"
    ⟨by decide, rfl, rfl, by decide +kernel⟩
  have hbuild : build aliasDocument = .ok aliasDeclarations := rfl
  cases hbuild.symm.trans herror

end OpenApiTypings
