import OpenApiTypings.Proofs.Schema.Composed
import OpenApiTypings.Proofs.Schema.Keywords
import OpenApiTypings.Proofs.Schema.Recursion
import OpenApiTypings.Proofs.Type.Null

/-!
# Nullable nodes

A nullable node is compiled as if it were not, and `null` is added to its type at the end.
Literals, combinators and declared types each add it on their own; what they do is the same,
up to two exceptions.  Nothing is added to the type of `null`, nor where the declared types
decide and `null` is one of them.
-/

namespace OpenApiTypings

/-! ### Values of computations -/

namespace Compilation

/-- The computation gives values with the property, from every registry. -/
def Gives (m : Compilation α) (p : α → Prop) : Prop := ∀ registry, p (m.run registry).value

namespace Gives

variable {m : Compilation α} {f : α → Compilation β} {p p' : α → Prop} {q : β → Prop}

theorem pure {a : α} (ha : p a) : Gives (Pure.pure a : Compilation α) p := fun _ => ha

theorem given {a : α} (ha : p a) :
    Gives (Pure.pure (some a) : Compilation (Option α)) fun a? => ∀ a ∈ a?, p a := by
  intro _ b hb
  obtain rfl := Option.mem_some.mp hb
  exact ha

theorem always (m : Compilation α) : m.Gives fun _ => True := fun _ => trivial

theorem bind (hm : m.Gives p) (hf : ∀ a, p a → (f a).Gives q) : Gives (m >>= f) q := by
  intro registry
  rw [run_bind]
  exact hf _ (hm registry) _

theorem mono (hm : m.Gives p) (h : ∀ a, p a → p' a) : m.Gives p' :=
  fun registry => h _ (hm registry)

theorem mapM {g : α → Compilation β} {r : α → β → Prop} {xs : List α}
    (hg : ∀ x ∈ xs, (g x).Gives (r x)) : (xs.mapM g).Gives (List.Forall₂ r xs) := by
  induction xs with
  | nil =>
    rw [List.mapM_nil]
    exact pure .nil
  | cons x rest ih =>
    rw [List.mapM_cons]
    refine bind (hg x (List.mem_cons_self ..)) fun y hy => ?_
    refine bind (ih fun x' hx' => hg x' (List.mem_cons_of_mem _ hx')) fun ys hys => ?_
    exact pure (.cons hy hys)

end Gives

end Compilation

namespace Schema

open Compilation (Gives)
open TypeExpr (IsBracketed NullIfRead)

/-! ### The types of objects -/

section Objects

variable (child : Child) (node : Node)

theorem isBracketed_narrow {base : TypeExpr} (hbase : base.IsBracketed) (name : String)
    (literals : List Literal) : (narrow base name literals).IsBracketed := by
  unfold narrow
  split
  · exact hbase
  · trivial

theorem compileOutcome_bracketed (scope : Scope) (segment : String)
    {make : TypeExpr → TypeExpr} {absent : List TypeExpr} (schema? : Option Json)
    (hmake : ∀ type, (make type).IsBracketed) (habsent : ∀ type ∈ absent, type.IsBracketed) :
    (compileOutcome child scope segment make absent schema?).Gives
      fun types => ∀ type ∈ types, type.IsBracketed := by
  cases schema? with
  | none => exact Gives.pure habsent
  | some schema =>
    refine Gives.bind (Gives.always _) fun type _ => Gives.pure fun other hother => ?_
    obtain rfl := List.mem_singleton.mp hother
    exact hmake type

theorem compileDiscriminated_bracketed (properties : Table Json) {base : TypeExpr}
    (hbase : base.IsBracketed) (scope : Scope) (name : String) (pinned : List Literal) :
    (compileDiscriminated child node properties base scope name pinned).Gives
      fun types => ∀ type ∈ types, type.IsBracketed := by
  rw [compileDiscriminated_eq]
  refine Gives.bind (compileOutcome_bracketed child scope "Then" _ (fun _ => trivial) nofun)
    fun thenPart hthen => ?_
  refine Gives.bind (compileOutcome_bracketed child scope "Else" _ (fun _ => trivial) ?_)
    fun elsePart helse => Gives.pure ?_
  · intro type htype
    split at htype
    · cases htype
    · obtain rfl := List.mem_singleton.mp htype
      exact isBracketed_narrow hbase name _
  · intro type htype
    rcases List.mem_append.mp htype with hleft | hright
    · exact hthen type hleft
    · exact helse type hright

theorem compileConditional_bracketed (properties : Table Json) {base : TypeExpr}
    (hbase : base.IsBracketed) (scope : Scope) :
    (compileConditional child node properties base scope).Gives IsBracketed := by
  rw [compileConditional_eq]
  refine Gives.bind (p := fun types => ∀ type ∈ types, type.IsBracketed) ?_ fun types htypes => ?_
  · split
    · exact compileDiscriminated_bracketed child node properties hbase scope _ _
    · exact Gives.pure nofun
  · unfold settleCondition
    split
    · exact Gives.pure (htypes _ (List.mem_singleton.mpr rfl))
    · exact Gives.pure trivial
    · refine Gives.bind (Gives.always _) fun branches _ => ?_
      split
      · exact Gives.pure hbase
      · exact Gives.pure trivial
      · exact Gives.pure trivial

theorem isBracketed_baseType (fields : List (Field TypeExpr)) (extra : ExtraProperties)
    (constraints : List TypeExpr) : (baseType fields extra constraints).IsBracketed := by
  unfold baseType extendedType
  split
  · split <;> trivial
  · trivial

theorem isBracketed_extraType {extra : ExtraProperties} {type : TypeExpr}
    (h : extra.type? = some type) : type.IsBracketed := by
  have hpattern : ∀ pattern value, extra.patternType? = some (pattern, value) →
      pattern.IsBracketed := by
    intro pattern value hpattern
    unfold ExtraProperties.patternType? at hpattern
    split at hpattern
    · cases hpattern
    · simp only at hpattern
      split at hpattern
      · cases hpattern
        trivial
      · cases hpattern
        trivial
  unfold ExtraProperties.type? at h
  split at h
  · cases h
    trivial
  · cases h
    trivial
  · cases h
    exact hpattern _ _ (by assumption)
  · cases h

theorem isBracketed_undeclaredObject (required : List String) (extra : ExtraProperties) :
    (undeclaredObject required extra).IsBracketed := by
  unfold undeclaredObject
  split
  · split
    · exact isBracketed_extraType (by assumption)
    · trivial
  · simp only
    split <;> trivial

theorem compileObject_bracketed (scope : Scope) :
    (compileObject child node scope).Gives IsBracketed := by
  rw [compileObject_eq]
  refine Gives.bind (Gives.always _) fun constraints _ => ?_
  refine Gives.bind (Gives.always _) fun extra _ => ?_
  split
  · exact Gives.pure (isBracketed_undeclaredObject _ extra)
  · refine Gives.bind (Gives.always _) fun fields _ => ?_
    have hbase := isBracketed_baseType fields extra constraints
    unfold layCondition
    split
    · exact compileConditional_bracketed child node _ hbase scope
    · exact Gives.pure hbase

end Objects

/-! ### The types of nodes -/

/-- The declared types of the node decide, and `null` is one of them. -/
def Node.listsNull (node : Node) : Bool :=
  !node.isListed && (combinator? node).isNone && node.types.contains "null"

section Nodes

variable (child : Child) (node : Node) (scope : Scope)

theorem compileArray_bracketed : (compileArray child node scope).Gives IsBracketed := by
  unfold compileArray
  split
  · exact Gives.bind (Gives.always _) fun _ _ => Gives.pure trivial
  · exact Gives.pure trivial

theorem compileTypeName_nullIfRead (name : String) :
    (compileTypeName child node scope name).Gives
      fun type => type.NullIfRead ∧ (name = "null" → type = .null) := by
  by_cases hnull : name = "null"
  · subst hnull
    exact Gives.pure ⟨fun _ => rfl, fun _ => rfl⟩
  have hgives : ∀ {type : TypeExpr}, type.NullIfRead →
      type.NullIfRead ∧ (name = "null" → type = .null) := fun h => ⟨h, fun hn => absurd hn hnull⟩
  have hword : ∀ {type : TypeExpr}, type.render ≠ "null" → type.NullIfRead := fun hne htext =>
    absurd htext hne
  unfold compileTypeName
  split
  · exact Gives.pure (hgives (hword (by decide)))
  split
  · exact Gives.pure (hgives (hword (by decide)))
  split
  · exact Gives.pure (hgives (hword (by decide)))
  split
  · exact (compileArray_bracketed child node scope).mono fun _ h => hgives h.nullIfRead
  split
  · exact (compileObject_bracketed child node _).mono fun _ h => hgives h.nullIfRead
  · exact Gives.pure (hgives (hword (by decide)))

theorem emitEnum_nullIfRead (hint : String) (values : List Json) (nullable : Bool) :
    (emitEnum hint values nullable).Gives fun type? => ∀ type ∈ type?, type.NullIfRead := by
  intro registry
  refine (EnumCall.ensures ⟨hint, values, nullable⟩
    (Q := fun _ type? => ∀ type ∈ type?, type.NullIfRead) (fun _ _ => nofun) ?_ registry).2 _
    (Registry.Reaches.refl _)
  rintro members name registry - - ⟨n, rfl⟩ type htype
  obtain rfl := Option.mem_some.mp htype
  simp only [EnumCall.usage]
  split
  · exact IsBracketed.nullIfRead trivial
  · exact fun htext =>
      absurd htext (Registry.candidate_ne (EnumDecl.baseName_endsInEnum hint values) n (by decide))

theorem nullIfRead_orNull {type : TypeExpr} (h : type.NullIfRead) :
    (orNull node type).NullIfRead := by
  unfold orNull
  split
  · exact IsBracketed.nullIfRead trivial
  · exact h

theorem compileListed_nullIfRead :
    (compileListed node scope).Gives fun type? => ∀ type ∈ type?, type.NullIfRead := by
  unfold compileListed
  split
  · exact Gives.pure nofun
  refine Gives.bind (emitEnum_nullIfRead scope.hint _ node.nullable) fun type? htype => ?_
  split
  · exact Gives.pure htype
  split
  · exact Gives.given (nullIfRead_orNull node (IsBracketed.nullIfRead trivial))
  · exact Gives.given (nullIfRead_orNull node fun htext => absurd htext (by decide))

theorem compileLiteral_nullIfRead :
    (compileLiteral node scope).Gives fun type? => ∀ type ∈ type?, type.NullIfRead := by
  unfold compileLiteral
  split
  · exact compileListed_nullIfRead node scope
  refine Gives.bind (emitEnum_nullIfRead scope.hint _ node.nullable) fun type? htype => ?_
  split
  · exact Gives.pure htype
  split
  · exact Gives.given (nullIfRead_orNull node (TypeExpr.nullIfRead_literal (by assumption)))
  · exact compileListed_nullIfRead node scope

theorem compileCombinator_nullIfRead :
    (compileCombinator child node scope).Gives fun type? => ∀ type ∈ type?, type.NullIfRead := by
  unfold compileCombinator
  cases hcombinator : combinator? node with
  | none => exact Gives.pure nofun
  | some found =>
    obtain ⟨c, branches⟩ := found
    have hc := mem_combinators_of_found hcombinator
    refine Gives.bind (Gives.always _) fun parts _ => Gives.given (nullIfRead_orNull node ?_)
    simp only [combinators, List.mem_cons, List.not_mem_nil, or_false] at hc
    rcases hc with rfl | rfl | rfl <;> exact IsBracketed.nullIfRead trivial

theorem compileUntyped_nullIfRead : (compileUntyped child node scope).Gives NullIfRead := by
  have hadd : ∀ type : TypeExpr, type.NullIfRead → (pure (orNull node type) :
      Compilation TypeExpr).Gives NullIfRead := fun type h => Gives.pure (nullIfRead_orNull node h)
  unfold compileUntyped
  simp only
  split
  · exact Gives.bind ((compileObject_bracketed child node _).mono fun _ h => h.nullIfRead) hadd
  split
  · exact Gives.bind ((compileArray_bracketed child node _).mono fun _ h => h.nullIfRead) hadd
  · exact Gives.bind (Gives.pure fun htext => absurd htext (by decide)) hadd

/-- The declared types make a type that has `null` whenever it is one of them. -/
theorem compileTyped_gives :
    (compileTyped child node scope).Gives fun type => type.NullIfRead ∧
      (node.types.contains "null" = true →
        ∀ lookups registry, type.Denotes lookups registry .null) := by
  unfold compileTyped
  split
  · rename_i htypes
    rw [htypes]
    exact (compileUntyped_nullIfRead child node scope).mono fun _ h => ⟨h, nofun⟩
  · rename_i single htypes
    rw [htypes]
    refine Gives.bind (compileTypeName_nullIfRead child node scope single) fun type htype => ?_
    refine Gives.pure ⟨?_, fun hcontains lookups registry => ?_⟩
    · split
      · exact htype.1
      · exact nullIfRead_orNull node htype.1
    · have hsingle := List.mem_singleton.mp (List.contains_iff_mem.mp hcontains)
      rw [if_pos hsingle.symm, htype.2 hsingle.symm]
      rfl
  · rename_i names _ _
    refine Gives.bind (Gives.mapM fun name _ => compileTypeName_nullIfRead child node scope name)
      fun parts hparts => ?_
    have hread : ∀ part ∈ parts, part.NullIfRead := by
      intro part hpart
      obtain ⟨name, -, hname⟩ := exists_left_of_mem hparts hpart
      exact hname.1
    have hunion := TypeExpr.nullIfRead_unionDistinct hread
    refine Gives.pure ⟨?_, fun hcontains lookups registry => ?_⟩
    · split
      · exact hunion
      · exact nullIfRead_orNull node hunion
    · obtain ⟨part, hpart, -, hnull⟩ :=
        exists_right_of_mem hparts (List.contains_iff_mem.mp hcontains)
      rw [if_pos hcontains]
      -- a part that reads the same is `null` as well
      refine TypeExpr.denotes_unionDistinct hpart (by rw [hnull rfl]; decide) ?_
      intro other hother hsame
      rw [hnull rfl] at hsame
      exact TypeExpr.denotes_null_of_isNull (hread other hother hsame) lookups registry

/-- A type that reads `null` is that of `null`, and where the declared types list `null`, the
type has it. -/
theorem compileNode_gives :
    (compileNode child node scope).Gives fun type => type.NullIfRead ∧
      (node.listsNull = true → ∀ lookups registry, type.Denotes lookups registry .null) := by
  unfold compileNode
  refine Gives.bind (p := fun type? => (∀ type ∈ type?, type.NullIfRead) ∧
      type?.isSome = node.isListed) ?_ fun literal? hliteral => ?_
  · exact fun registry => ⟨compileLiteral_nullIfRead node scope registry,
      compileLiteral_value_isSome node scope registry⟩
  obtain ⟨hread, hlisted⟩ := hliteral
  cases literal? with
  | some type =>
    refine Gives.pure ⟨hread type rfl, fun hnull => ?_⟩
    rw [Node.listsNull, ← hlisted] at hnull
    cases hnull
  | none =>
    refine Gives.bind (p := fun type? => (∀ type ∈ type?, type.NullIfRead) ∧
        type?.isSome = (combinator? node).isSome) ?_ fun combined? hcombined => ?_
    · exact fun registry => ⟨compileCombinator_nullIfRead child node scope registry,
        compileCombinator_value_isSome child node scope registry⟩
    obtain ⟨hread, hcombined⟩ := hcombined
    cases combined? with
    | some type =>
      refine Gives.pure ⟨hread type rfl, fun hnull => ?_⟩
      rw [Node.listsNull, ← Option.not_isSome, ← hcombined] at hnull
      simp at hnull
    | none =>
      refine (compileTyped_gives child node scope).mono fun type htype => ⟨htype.1, fun hnull => ?_⟩
      simp only [Node.listsNull, Bool.and_eq_true] at hnull
      exact htype.2 hnull.2

end Nodes

/-! ### Two nodes that differ in being nullable -/

/-- The type with `null` added, unless it is that of `null`. -/
def withNull (type : TypeExpr) : TypeExpr :=
  if type.isNull then type else .union [type, .null]

/-- The type of a nullable node from what its type is otherwise. -/
def Node.addNull (node : Node) (type : TypeExpr) : TypeExpr :=
  if node.listsNull then type else withNull type

theorem emitEnum_nullable (hint : String) (values : List Json) :
    emitEnum hint values true = do return (← emitEnum hint values false).map withNull := by
  unfold emitEnum
  cases EnumMember.ofValues? values with
  | none => rfl
  | some members =>
    simp only [bind_assoc, pure_bind]
    rfl

section Pair

variable {node marked : Node} (h : node.AgreeBut "nullable" marked)
  (hplain : node.nullable = false) (hmarked : marked.nullable = true)

include hplain in
theorem orNull_plain (type : TypeExpr) : orNull node type = type := by
  rw [orNull, hplain, Bool.false_and, if_neg Bool.false_ne_true]

include hmarked in
theorem orNull_marked (type : TypeExpr) : orNull marked type = withNull type := by
  unfold orNull withNull
  rw [hmarked]
  cases type.isNull <;> rfl

include h hplain hmarked

/-! #### Literals -/

theorem compileListed_nullable (scope : Scope) :
    compileListed marked scope = do return (← compileListed node scope).map withNull := by
  unfold compileListed Node.enumValues?
  rw [h.list? (by decide)]
  cases node.list? "enum" with
  | none => rfl
  | some values =>
    simp only [hmarked, hplain, emitEnum_nullable, bind_assoc, pure_bind]
    congr 1
    funext type?
    cases type? with
    | some type => rfl
    | none =>
      cases values.mapM Literal.ofJson? <;>
        simp only [Option.map_none, orNull_plain hplain, orNull_marked hmarked, pure_bind] <;> rfl

theorem compileLiteral_nullable (scope : Scope) :
    compileLiteral marked scope = do return (← compileLiteral node scope).map withNull := by
  unfold compileLiteral Node.const?
  rw [h "const" (by decide)]
  cases node.get? "const" with
  | none => exact compileListed_nullable h hplain hmarked scope
  | some value =>
    simp only [hmarked, hplain, emitEnum_nullable, bind_assoc, pure_bind]
    congr 1
    funext type?
    cases type? with
    | some type => rfl
    | none =>
      cases Literal.ofJson? value with
      | some literal =>
        simp only [Option.map_none, orNull_plain hplain, orNull_marked hmarked, pure_bind]
        rfl
      | none => exact compileListed_nullable h hplain hmarked scope

/-! #### Shapes -/

theorem compileCombinator_nullable (child : Child) (scope : Scope) :
    compileCombinator child marked scope = do
      return (← compileCombinator child node scope).map withNull := by
  unfold compileCombinator
  rw [h.combinator? (by decide)]
  cases combinator? node with
  | none => rfl
  | some found =>
    simp only [orNull_plain hplain, orNull_marked hmarked, bind_assoc, pure_bind, Option.map_some]

theorem compileUntyped_nullable (child : Child) (scope : Scope) :
    compileUntyped child marked scope = do return withNull (← compileUntyped child node scope) := by
  unfold compileUntyped
  rw [h.looksLikeObject (by decide), h.items? (by decide), h.compileArray (by decide),
    h.compileObject (by decide)]
  simp only [orNull_plain hplain, orNull_marked hmarked, bind_pure]
  cases looksLikeObject node with
  | true => rfl
  | false => cases node.items?.isSome <;> rfl

theorem compileTyped_nullable (child : Child) (scope : Scope) :
    compileTyped child marked scope = do
      let type ← compileTyped child node scope
      return if node.types.contains "null" then type else withNull type := by
  unfold compileTyped
  rw [h.types (by decide), h.compileTypeName (by decide)]
  cases htypes : node.types with
  | nil => exact compileUntyped_nullable h hplain hmarked child scope
  | cons name more =>
    simp only [orNull_plain hplain, orNull_marked hmarked]
    cases more with
    | nil =>
      have hcontains : ([name].contains "null" = true) = (name = "null") := by
        rw [List.contains_iff_mem, List.mem_singleton]
        exact propext eq_comm
      simp only [bind_assoc, pure_bind, ite_self, hcontains]
    | cons second others => simp only [bind_assoc, pure_bind, ite_self]

theorem compileNode_nullable (child : Child) (scope : Scope) :
    compileNode child marked scope = do
      return node.addNull (← compileNode child node scope) := by
  unfold compileNode
  rw [compileLiteral_nullable h hplain hmarked, compileCombinator_nullable h hplain hmarked,
    compileTyped_nullable h hplain hmarked]
  simp only [bind_assoc, pure_bind]
  refine Compilation.bind_congr_of_value fun registry => ?_
  -- which of the three gives the type is the same from every registry
  have hlisted := compileLiteral_value_isSome node scope registry
  cases hliteral : ((compileLiteral node scope).run registry).value with
  | some type =>
    have hnull : node.listsNull = false := by
      rw [Node.listsNull, ← hlisted, hliteral]
      rfl
    rw [Option.map_some, pure_bind, Node.addNull, hnull]
    rfl
  | none =>
    simp only [Option.map_none, bind_assoc]
    refine Compilation.bind_congr_of_value fun registry' => ?_
    have hcombined := compileCombinator_value_isSome child node scope registry'
    cases hcombinator : ((compileCombinator child node scope).run registry').value with
    | some type =>
      have hnull : node.listsNull = false := by
        rw [Node.listsNull, ← Option.not_isSome, ← hcombined, hcombinator]
        simp
      rw [Option.map_some, pure_bind, Node.addNull, hnull]
      rfl
    | none =>
      have hnull : node.listsNull = node.types.contains "null" := by
        rw [Node.listsNull, ← Option.not_isSome, ← hcombined, hcombinator, ← hlisted, hliteral]
        rfl
      simp only [Option.map_none, Node.addNull, hnull]

end Pair

/-! ### Nullable schemas -/

/-- The text of a nullable schema from what its text is otherwise. -/
def nullableText (listsNull : Bool) (text : String) : String :=
  if text = "null" ∨ listsNull = true then text else "(" ++ text ++ " | null)"

/-- From every registry the second computation declares what the first one does, and its type
is that of the first one with `null` added. -/
structure AddsNull (listsNull : Bool) (plain marked : Compilation TypeExpr) : Prop where
  enums : ∀ registry, (marked.run registry).enums = (plain.run registry).enums
  text : ∀ registry, (marked.run registry).value.render =
    nullableText listsNull (plain.run registry).value.render
  hasNull : ∀ registry lookups later, (marked.run registry).value.Denotes lookups later .null

theorem render_union_null (type : TypeExpr) :
    (TypeExpr.union [type, .null]).render = "(" ++ type.render ++ " | null)" := by
  have hending : " | null)" = " | " ++ ("null" ++ ")") := by decide
  have htexts : String.intercalate " | " [type.render, "null"] =
      type.render ++ " | " ++ "null" := rfl
  rw [TypeExpr.render_union, Text.parenthesized, hending]
  show "(" ++ String.intercalate " | " [type.render, "null"] ++ ")" = _
  rw [htexts]
  simp only [String.append_assoc]

theorem addNull_render (node : Node) {type : TypeExpr} (hread : type.NullIfRead) :
    (node.addNull type).render = nullableText node.listsNull type.render := by
  unfold Node.addNull nullableText withNull
  cases node.listsNull with
  | true => simp
  | false =>
    by_cases hnull : type.isNull = true
    · have htext : type.render = "null" := by
        unfold TypeExpr.isNull at hnull
        split at hnull
        · rfl
        · cases hnull
      simp [hnull, htext]
    · have htext : type.render ≠ "null" := fun htext => hnull (hread htext)
      simp [hnull, htext, render_union_null]

theorem addNull_denotes (node : Node) {type : TypeExpr}
    {lookups : Section → String → Json → Prop} {registry : Registry}
    (hlists : node.listsNull = true → type.Denotes lookups registry .null) :
    (node.addNull type).Denotes lookups registry .null := by
  unfold Node.addNull withNull
  split
  · exact hlists (by assumption)
  split
  · exact TypeExpr.denotes_null_of_isNull (by assumption) lookups registry
  · exact TypeExpr.denotes_union.mpr ⟨.null, by simp, rfl⟩

theorem compileNode_addsNull {node marked : Node} (h : node.AgreeBut "nullable" marked)
    (hplain : node.nullable = false) (hmarked : marked.nullable = true) (child : Child)
    (scope : Scope) :
    AddsNull node.listsNull (compileNode child node scope) (compileNode child marked scope) := by
  have hgives := compileNode_gives child node scope
  rw [compileNode_nullable h hplain hmarked]
  refine ⟨fun registry => rfl, fun registry => ?_, fun registry lookups later => ?_⟩
  · exact addNull_render node (hgives registry).1
  · exact addNull_denotes node fun hlists => (hgives registry).2 hlists lookups later

section Entries

variable (schemas : Table (RefOr Json)) {node : Node} (href : node.reference? = none)
  {scope : Scope} (hscope : scope.exhausted = false)
include href hscope

theorem compile_node :
    compile schemas (.inline (.object node.entries)) scope =
      compileNode (compileNested schemas) node scope := by
  have hnode : Node.ofJson? (.object node.entries) = some node := rfl
  rw [compile, compileSlotWith, hscope, hnode]
  simp only [href, Bool.false_eq_true, if_false]

theorem compileNested_node {outer : Scope} (hdeeper : outer.deeper 1 = scope) :
    compileNested schemas outer (.object node.entries) =
      compileNode (compileNested schemas) node scope := by
  have hnode : Node.ofJson? (.object node.entries) = some node := rfl
  have houter : outer.exhausted = false := by
    have hdepth := depth_le_of_not_exhausted hscope
    rw [← hdeeper] at hdepth
    simp only [Scope.deeper] at hdepth
    simp only [Scope.exhausted, decide_eq_false_iff_not]
    omega
  have hstep := outcome_eq_step schemas (.nested (.object node.entries) outer)
  simp only [outcome, step, compileNestedBy, houter, hnode, href, hdeeper, hscope,
    Bool.false_eq_true, if_false] at hstep
  exact hstep

end Entries

/-- A schema that is no reference is compiled alike with and without being nullable, in a slot
and nested in another one, but for the `null` that is added to its type. -/
theorem nullable_addsNull (schemas : Table (RefOr Json)) {node marked : Node}
    (h : node.AgreeBut "nullable" marked) (hplain : node.get? "nullable" = none)
    (hmarked : marked.get? "nullable" = some (.bool true)) (href : node.reference? = none)
    {scope : Scope} (hscope : scope.exhausted = false) :
    AddsNull node.listsNull (compile schemas (.inline (.object node.entries)) scope)
        (compile schemas (.inline (.object marked.entries)) scope) ∧
      ∀ outer : Scope, outer.deeper 1 = scope →
        AddsNull node.listsNull (compileNested schemas outer (.object node.entries))
          (compileNested schemas outer (.object marked.entries)) := by
  have hflag : node.nullable = false := by
    rw [Node.nullable, Node.flag, hplain]
    rfl
  have hflag' : marked.nullable = true := by
    rw [Node.nullable, Node.flag, hmarked]
    rfl
  have href' : marked.reference? = none := by
    rw [Node.reference?, h "$ref" (by decide)]
    exact href
  have hnode := compileNode_addsNull h hflag hflag' (compileNested schemas) scope
  refine ⟨?_, fun outer hdeeper => ?_⟩
  · rw [compile_node schemas href hscope, compile_node schemas href' hscope]
    exact hnode
  · rw [compileNested_node schemas href hscope hdeeper,
      compileNested_node schemas href' hscope hdeeper]
    exact hnode

/-- A switch that may be `null` keeps the name of its enum. -/
theorem nullable_addsNull_switch :
    let values := Json.array [.string "on", .string "off"]
    ((compile [] (.inline (.object [("nullable", .bool true), ("enum", values)]))
      (Scope.top .component "Switch")).run Registry.empty).value.render =
        "(SwitchEnum | null)" := by
  intro values
  have hagree : Node.AgreeBut "nullable" ⟨[("enum", values)]⟩
      ⟨[("nullable", .bool true), ("enum", values)]⟩ := by
    intro keyword hkeyword
    show List.lookup keyword (("nullable", Json.bool true) :: [("enum", values)]) = _
    rw [List.lookup_cons, beq_eq_false_iff_ne.mpr hkeyword]
    rfl
  have hscope : (Scope.top .component "Switch").exhausted = false := by decide
  have hadds := (nullable_addsNull [] hagree rfl rfl rfl hscope).1
  rw [hadds.text]
  decide +kernel

end Schema

end OpenApiTypings
