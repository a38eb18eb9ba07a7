import OpenApiTypings.Document.Resolve
import OpenApiTypings.Proofs.Text.Affix
import OpenApiTypings.Proofs.Text.StringValue

/-!
# Pointers to components

A pointer addresses a component just when it consists of the beginning that all pointers share, the
key of a section, a slash and a name.  No key has a slash in it, so it is never in doubt where the
name begins, and a pointer addresses a component of one section at most.  The look-up of a
component in the declarations tells its section and its name in the same way, because both stand in
it as literals.

What a reference comes to is told by `Resolution`, without following it: the entry that it
addresses, if that is an object in place, and one of four failures otherwise.  An entry that is
itself a reference is one of them, wherever it points.
-/

namespace OpenApiTypings

/-! ### Sections and names in pointers -/

namespace Section

theorem key_injective : Function.Injective key := by
  intro sec sec'
  cases sec <;> cases sec' <;> decide

theorem slash_notMem_key (sec : Section) : '/' ∉ sec.key.toList := by
  cases sec <;> decide

variable {sec sec' : Section} {pointer name name' : String}

theorem nameIn?_eq_some_iff :
    sec.nameIn? pointer = some name ↔ pointer = "#/components/" ++ sec.key ++ "/" ++ name := by
  rw [nameIn?, Option.map_eq_some_iff, ← pointerHead, ← String.toList_inj, String.toList_append]
  simp only [Text.dropHead?_eq_some_iff]
  constructor
  · rintro ⟨behind, hpointer, rfl⟩
    rw [hpointer, String.toList_ofList]
  · intro hpointer
    exact ⟨name.toList, hpointer, String.ofList_toList⟩

theorem eq_of_nameIn? (h : sec.nameIn? pointer = some name)
    (h' : sec'.nameIn? pointer = some name') : sec = sec' := by
  rw [nameIn?_eq_some_iff] at h h'
  -- the key ends at the first slash behind the common beginning
  have hkey : ∀ (sec : Section) (behind : List Char),
      (sec.key.toList ++ '/' :: behind).takeWhile (· ≠ '/') = sec.key.toList := by
    intro sec behind
    rw [List.takeWhile_append_of_pos, List.takeWhile_cons_of_neg (by simp), List.append_nil]
    intro c hc
    have hne : c ≠ '/' := fun heq => slash_notMem_key sec (heq ▸ hc)
    simpa using hne
  have hpointer : "#/components/".toList ++ (sec.key.toList ++ '/' :: name.toList) =
      "#/components/".toList ++ (sec'.key.toList ++ '/' :: name'.toList) := by
    have hlist := congrArg String.toList (h.symm.trans h')
    simpa using hlist
  apply key_injective
  apply String.toList_inj.mp
  rw [← hkey sec name.toList, List.append_cancel_left hpointer, hkey]

/-- The section and the name of a look-up are those that its literals stand for. -/
theorem lookupText_injective :
    Function.Injective fun place : Section × String => place.1.lookupText place.2 := by
  rintro ⟨sec, name⟩ ⟨sec', name'⟩ h
  have hlist := congrArg String.toList h
  simp only [lookupText, String.toList_append, List.append_assoc, List.append_cancel_left_eq]
    at hlist
  have hread := congrArg Text.stringToken? hlist
  rw [Text.stringToken?_quote, Text.stringToken?_quote] at hread
  obtain rfl := key_injective (Text.eq_of_read_eq hread)
  simp only [List.append_cancel_left_eq, List.append_cancel_right_eq] at hlist
  rw [Text.quote_injective (String.toList_inj.mp hlist)]

end Section

/-! ### What a reference comes to -/

/-- The kinds of objects that references are followed to. -/
inductive ComponentKind.Followed : {α : Type} → ComponentKind α → Prop
  | response : Followed .response
  | requestBody : Followed .requestBody
  | parameter : Followed .parameter
  | header : Followed .header
  | securityScheme : Followed .securityScheme
  | pathItem : Followed .pathItem

/-- The section has the entry under the name. -/
inductive Components.Holds (components : Components) (name : String) :
    Section → {α : Type} → RefOr α → Prop
  | response {slot} (h : components.responses.get? name = some slot) :
      Holds components name .responses slot
  | requestBody {slot} (h : components.requestBodies.get? name = some slot) :
      Holds components name .requestBodies slot
  | parameter {slot} (h : components.parameters.get? name = some slot) :
      Holds components name .parameters slot
  | header {slot} (h : components.headers.get? name = some slot) :
      Holds components name .headers slot
  | securityScheme {slot} (h : components.securitySchemes.get? name = some slot) :
      Holds components name .securitySchemes slot
  | pathItem {slot} (h : components.pathItems.get? name = some slot) :
      Holds components name .pathItems slot

/-- What a reference to an object of a kind comes to. -/
inductive Resolution (doc : Document) {α : Type} (kind : ComponentKind α) (pointer : String) :
    Except CompileCause α → Prop
  | found {components name value} (hcomponents : doc.components = some components)
      (hpointer : pointer = "#/components/" ++ kind.sec.key ++ "/" ++ name)
      (hentry : components.Holds name kind.sec (.inline value : RefOr α)) :
      Resolution doc kind pointer (.ok value)
  | nested {components name other} (hcomponents : doc.components = some components)
      (hpointer : pointer = "#/components/" ++ kind.sec.key ++ "/" ++ name)
      (hentry : components.Holds name kind.sec (.reference other : RefOr α)) :
      Resolution doc kind pointer (.error (.nestedReference kind.sec other))
  | missing {components name} (hcomponents : doc.components = some components)
      (hpointer : pointer = "#/components/" ++ kind.sec.key ++ "/" ++ name)
      (hentry : ∀ slot : RefOr α, ¬ components.Holds name kind.sec slot) :
      Resolution doc kind pointer (.error (.missingComponent kind.sec name))
  | elsewhere (hpointer : ∀ name, pointer ≠ "#/components/" ++ kind.sec.key ++ "/" ++ name) :
      Resolution doc kind pointer (.error (.unsupportedReference pointer))
  | noComponents (hcomponents : doc.components = none) :
      Resolution doc kind pointer (.error (.unsupportedReference pointer))

section Resolution

variable {α : Type} {kind : ComponentKind α} {doc : Document} {pointer : String}

theorem ComponentKind.Followed.holds_iff (hkind : kind.Followed) {components : Components}
    {name : String} {slot : RefOr α} :
    components.Holds name kind.sec slot ↔ (kind.entries components).get? name = some slot := by
  cases hkind with
  | response => exact ⟨fun | .response h => h, .response⟩
  | requestBody => exact ⟨fun | .requestBody h => h, .requestBody⟩
  | parameter => exact ⟨fun | .parameter h => h, .parameter⟩
  | header => exact ⟨fun | .header h => h, .header⟩
  | securityScheme => exact ⟨fun | .securityScheme h => h, .securityScheme⟩
  | pathItem => exact ⟨fun | .pathItem h => h, .pathItem⟩

theorem resolution_resolve (hkind : kind.Followed) :
    Resolution doc kind pointer (resolve kind doc (.reference pointer)) := by
  cases hname : kind.sec.nameIn? pointer with
  | none =>
    simp only [resolve, hname]
    refine .elsewhere fun name hpointer => ?_
    cases hname.symm.trans (Section.nameIn?_eq_some_iff.mpr hpointer)
  | some name =>
    have hpointer := Section.nameIn?_eq_some_iff.mp hname
    cases hcomponents : doc.components with
    | none =>
      simp only [resolve, hname, hcomponents]
      exact .noComponents hcomponents
    | some components =>
      simp only [resolve, hname, hcomponents]
      cases hentry : (kind.entries components).get? name with
      | none =>
        refine .missing hcomponents hpointer fun slot hslot => ?_
        cases hentry.symm.trans (hkind.holds_iff.mp hslot)
      | some slot =>
        have hholds := hkind.holds_iff.mpr hentry
        cases slot with
        | reference other => exact .nested hcomponents hpointer hholds
        | inline value => exact .found hcomponents hpointer hholds

theorem Resolution.resolve_eq (hkind : kind.Followed) {result : Except CompileCause α}
    (h : Resolution doc kind pointer result) : resolve kind doc (.reference pointer) = result := by
  cases h with
  | found hcomponents hpointer hentry =>
    rw [hkind.holds_iff] at hentry
    simp only [resolve, Section.nameIn?_eq_some_iff.mpr hpointer, hcomponents, hentry]
  | nested hcomponents hpointer hentry =>
    rw [hkind.holds_iff] at hentry
    simp only [resolve, Section.nameIn?_eq_some_iff.mpr hpointer, hcomponents, hentry]
  | @missing components name hcomponents hpointer hentry =>
    have hnone : (kind.entries components).get? name = none := by
      refine Option.eq_none_iff_forall_ne_some.mpr fun slot hslot => ?_
      exact hentry slot (hkind.holds_iff.mpr hslot)
    simp only [resolve, Section.nameIn?_eq_some_iff.mpr hpointer, hcomponents, hnone]
  | elsewhere hpointer =>
    have hnone : kind.sec.nameIn? pointer = none := by
      refine Option.eq_none_iff_forall_ne_some.mpr fun name hname => ?_
      exact hpointer name (Section.nameIn?_eq_some_iff.mp hname)
    simp only [resolve, hnone]
  | noComponents hcomponents =>
    simp only [resolve, hcomponents]
    cases kind.sec.nameIn? pointer with
    | none => rfl
    | some name => rfl

theorem resolve_reference_iff (hkind : kind.Followed) {result : Except CompileCause α} :
    resolve kind doc (.reference pointer) = result ↔ Resolution doc kind pointer result := by
  constructor
  · rintro rfl
    exact resolution_resolve hkind
  · exact Resolution.resolve_eq hkind

theorem resolve_eq_ok_iff (hkind : kind.Followed) {value : α} :
    resolve kind doc (.reference pointer) = .ok value ↔
      ∃ components name, doc.components = some components ∧
        pointer = "#/components/" ++ kind.sec.key ++ "/" ++ name ∧
        components.Holds name kind.sec (.inline value : RefOr α) := by
  rw [resolve_reference_iff hkind]
  constructor
  · rintro ⟨hcomponents, hpointer, hentry⟩
    exact ⟨_, _, hcomponents, hpointer, hentry⟩
  · rintro ⟨components, name, hcomponents, hpointer, hentry⟩
    exact .found hcomponents hpointer hentry

end Resolution

/-- Pointers and look-ups tell their section and their name, and a reference is resolved exactly:
to the object in place that its pointer addresses, or to the failure that says why there is none.
A reference that it addresses is never followed. -/
theorem references_exact :
    (∀ (sec : Section) (pointer name : String),
      sec.nameIn? pointer = some name ↔ pointer = "#/components/" ++ sec.key ++ "/" ++ name) ∧
    (∀ (sec sec' : Section) (pointer name name' : String),
      sec.nameIn? pointer = some name → sec'.nameIn? pointer = some name' → sec = sec') ∧
    (Function.Injective fun place : Section × String => place.1.lookupText place.2) ∧
    ∀ {α : Type} {kind : ComponentKind α}, kind.Followed → ∀ (doc : Document) (pointer : String),
      (∀ value, resolve kind doc (.reference pointer) = .ok value ↔
        ∃ components name, doc.components = some components ∧
          pointer = "#/components/" ++ kind.sec.key ++ "/" ++ name ∧
          components.Holds name kind.sec (.inline value : RefOr α)) ∧
      ∀ result, resolve kind doc (.reference pointer) = result ↔
        Resolution doc kind pointer result := by
  refine ⟨fun _ _ _ => Section.nameIn?_eq_some_iff, fun _ _ _ _ _ => Section.eq_of_nameIn?,
    Section.lookupText_injective, fun hkind doc pointer => ⟨?_, ?_⟩⟩
  · exact fun value => resolve_eq_ok_iff hkind
  · exact fun result => resolve_reference_iff hkind

/-- A response that refers to itself is not followed. -/
theorem references_exact_loop :
    ComponentKind.response.Followed ∧
      resolve .response
        { components := some { responses := [("Loop", .reference "#/components/responses/Loop")] } }
        (.reference "#/components/responses/Loop") =
          .error (.nestedReference .responses "#/components/responses/Loop") := by
  have hpointer : "#/components/responses/Loop" =
      "#/components/" ++ ComponentKind.response.sec.key ++ "/" ++ "Loop" := by decide
  obtain ⟨-, -, -, hresolve⟩ := references_exact
  refine ⟨.response, ((hresolve .response _ _).2 _).mpr ?_⟩
  exact .nested rfl hpointer (.response rfl)

end OpenApiTypings
