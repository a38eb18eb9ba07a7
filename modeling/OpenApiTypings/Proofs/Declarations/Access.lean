import OpenApiTypings.Declarations.Access
import OpenApiTypings.Proofs.Type.Composed

/-!
# Types of servers and security

Types of servers, security requirements and security schemes are composed of literals and
simple types, whatever the texts of the document are.  So they have every property that
composing keeps; in particular they are atomic.
-/

namespace OpenApiTypings

open TypeExpr (ComposesOver)

/-! ### Fields -/

/-- The property holds of the types of all fields. -/
def Field.All (P : TypeExpr → Prop) (fields : List (Field TypeExpr)) : Prop :=
  ∀ f ∈ fields, P f.type

section Composed

variable {allowed : KeyType → Prop} {P : TypeExpr → Prop} (hP : ComposesOver allowed P)

namespace Field

theorem all_nil : All P [] := fun _ hf => absurd hf List.not_mem_nil

variable {f : Field TypeExpr} {fields more : List (Field TypeExpr)}

theorem All.cons (hf : P f.type) (hfields : All P fields) : All P (f :: fields) := by
  intro g hg
  rcases List.mem_cons.mp hg with rfl | hrest
  · exact hf
  · exact hfields g hrest

theorem All.append (h : All P fields) (hmore : All P more) : All P (fields ++ more) := by
  intro g hg
  rcases List.mem_append.mp hg with hleft | hright
  · exact h g hleft
  · exact hmore g hright

theorem all_singleton (hf : P f.type) : All P [f] := all_nil.cons hf

theorem all_ite {c : Prop} [Decidable c] (h : All P fields) (hmore : All P more) :
    All P (if c then fields else more) := by
  split
  · exact h
  · exact hmore

end Field

open OpenApiTypings.Field (All all_nil all_singleton all_ite)

include hP

theorem textList_composes (values : List String) : P (TypeExpr.textList values) := by
  apply hP.array
  apply hP.unionOf
  intro part hpart
  obtain ⟨s, -, rfl⟩ := List.mem_map.mp hpart
  exact hP.text s

theorem textIfPresent_composes (name value : String) : All P (Field.textIfPresent name value) :=
  all_ite all_nil (all_singleton (hP.text value))

/-! ### Servers -/

theorem ServerVariable.type_composes (var : ServerVariable) : P var.type := by
  apply hP.objectOf
  refine All.append (All.append ?_ ?_) (all_ite all_nil ?_)
  · exact all_singleton (hP.text _)
  · exact textIfPresent_composes hP _ _
  · exact all_singleton (textList_composes hP _)

theorem Server.type_composes (server : Server) : P server.type := by
  apply hP.objectOf
  refine All.append (All.append ?_ ?_) (all_ite all_nil ?_)
  · exact all_singleton (hP.text _)
  · exact textIfPresent_composes hP _ _
  · apply all_singleton
    apply hP.objectOf
    intro f hf
    obtain ⟨entry, -, rfl⟩ := List.mem_map.mp hf
    exact entry.2.type_composes hP

theorem Server.listType_composes (servers : List Server) : P (Server.listType servers) := by
  apply hP.listOf
  intro item hitem
  obtain ⟨server, -, rfl⟩ := List.mem_map.mp hitem
  exact server.type_composes hP

/-! ### Security requirements -/

theorem SecurityRequirement.type_composes (requirement : SecurityRequirement) :
    P (SecurityRequirement.type requirement) := by
  apply hP.objectOf
  intro f hf
  obtain ⟨entry, -, rfl⟩ := List.mem_map.mp hf
  simp only [Field.required]
  split
  · exact hP.array hP.string
  · exact textList_composes hP entry.2

theorem SecurityRequirement.listType_composes (requirements : List SecurityRequirement) :
    P (SecurityRequirement.listType requirements) := by
  apply hP.listOf
  intro item hitem
  obtain ⟨requirement, -, rfl⟩ := List.mem_map.mp hitem
  exact SecurityRequirement.type_composes hP requirement

/-! ### Security schemes -/

theorem OAuthFlow.type_composes (flow : OAuthFlow) : P flow.type := by
  have hscopes : P (if flow.scopes.isEmpty then TypeExpr.record .string
      else .objectOf (flow.scopes.map fun entry => Field.required entry.1 .string)) := by
    split
    · exact hP.record hP.string
    · apply hP.objectOf
      intro f hf
      obtain ⟨entry, -, rfl⟩ := List.mem_map.mp hf
      exact hP.string
  apply hP.objectOf
  refine All.append ?_ (all_singleton hscopes)
  intro f hf
  obtain ⟨entry, -, rfl⟩ := List.mem_map.mp hf
  exact hP.string

theorem OAuthFlows.type_composes (flows : Option OAuthFlows) : P (OAuthFlows.type flows) := by
  cases flows with
  | none => exact hP.unknown
  | some flows =>
    apply hP.objectOf
    intro f hf
    obtain ⟨entry, -, hentry⟩ := List.mem_filterMap.mp hf
    obtain ⟨flow, -, rfl⟩ := Option.map_eq_some_iff.mp hentry
    exact flow.type_composes hP

theorem declaredText_composes (s : String) : P (TypeExpr.declaredText s) := by
  unfold TypeExpr.declaredText
  split
  · exact hP.string
  · exact hP.text s

namespace SecurityScheme

theorem fields_compose (scheme : SecurityScheme) : All P scheme.fields := by
  have hdeclared : ∀ name value fields, All P fields →
      All P (Field.required name (TypeExpr.declaredText value) :: fields) :=
    fun name value fields h => h.cons (declaredText_composes hP value)
  have hgiven : ∀ name value : String, All P
      (if value.isEmpty then [] else [Field.required name (TypeExpr.declaredText value)]) :=
    fun name value => all_ite all_nil (hdeclared name value [] all_nil)
  have hflows : All P [Field.required "flows" (OAuthFlows.type scheme.flows)] :=
    all_singleton (OAuthFlows.type_composes hP scheme.flows)
  unfold fields
  split
  · exact hdeclared _ _ _ (hdeclared _ _ _ (hdeclared _ _ _ all_nil))
  split
  · exact (hgiven _ _).append (hdeclared _ _ _ (hdeclared _ _ _ all_nil))
  split
  · exact hflows.append (hdeclared _ _ _ all_nil)
  split
  · exact hdeclared _ _ _ (hdeclared _ _ _ all_nil)
  · refine All.append ?_ (hgiven _ _)
    refine All.append ?_ (hgiven _ _)
    refine All.append ?_ (hgiven _ _)
    refine All.append ?_ (hgiven _ _)
    refine All.append ?_ (hgiven _ _)
    exact (hgiven _ _).append (all_ite hflows all_nil)

theorem type_composes (scheme : SecurityScheme) : P scheme.type := by
  unfold type
  simp only
  split
  · exact hP.record hP.unknown
  split
  · exact hP.object (scheme.fields_compose hP)
  · exact hP.object ((scheme.fields_compose hP).cons hP.string)

end SecurityScheme

end Composed

theorem Server.atomic_listType (servers : List Server) : (Server.listType servers).Atomic :=
  Server.listType_composes TypeExpr.composes_atomic servers

theorem SecurityRequirement.atomic_listType (requirements : List SecurityRequirement) :
    (SecurityRequirement.listType requirements).Atomic :=
  SecurityRequirement.listType_composes TypeExpr.composes_atomic requirements

end OpenApiTypings
