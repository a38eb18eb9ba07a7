import OpenApiTypings.Proofs.Enum.Spelling
import OpenApiTypings.Proofs.Schema.Compilation
import OpenApiTypings.Proofs.Schema.Condition
import OpenApiTypings.Proofs.Schema.Layers
import OpenApiTypings.Proofs.Schema.Traversal
import OpenApiTypings.Proofs.Table
import OpenApiTypings.Proofs.Type.Composed

/-!
# Properties of compiled types

The compiler makes types by composing them from parts.  So a property that composing keeps
holds of every compiled type as soon as it holds of the enums that are declared and of
look-ups of schemas.  The property may depend on the registry: what is said of an enum
holds in every registry that is reached after it was declared.

A property that needs distinct keys is kept by nodes whose requirements between properties
name each property once: the keys of all other objects come from tables.  One that allows some
keys of mapped types alone is kept by nodes with patterns that give such keys.
-/

namespace OpenApiTypings.Schema

open TypeExpr (ComposesWith)
open Compilation (Ensures)

/-- The property is kept by composing, and holds of what compiled types refer to. -/
structure KeptInTypesWith (distinct : Prop) (allowed : KeyType → Prop)
    (Q : Registry → TypeExpr → Prop) : Prop where
  composes : ∀ registry, ComposesWith distinct allowed (Q registry)
  enumRef : ∀ {registry name members}, registry.members? name = some members →
    Spelled name.toList → Q registry (.enumRef name)
  component : ∀ registry name, Q registry (.component .schemas name)

/-- The property is kept by composing, whatever patterns give as keys of mapped types. -/
abbrev KeptInTypesWhere (distinct : Prop) : (Registry → TypeExpr → Prop) → Prop :=
  KeptInTypesWith distinct KeyType.Printable

/-- The property is kept by composing, whatever keys objects have. -/
structure KeptInTypes (Q : Registry → TypeExpr → Prop) : Prop extends KeptInTypesWhere False Q

/-- The declared types of a node, or its other keywords, make it an object. -/
def Node.isTypedObject (node : Node) : Bool :=
  match node.types with
  | [] => looksLikeObject node
  | names => names.contains "object"

/-- The node is compiled to an object: neither literals nor a combinator give its type. -/
def Node.isObject (node : Node) : Bool :=
  !node.isListed && (combinator? node).isNone && node.isTypedObject

/-- A key and the names that it brings with it are all different. -/
def Node.DistinctDependencies (node : Node) : Prop :=
  ∀ key items, (key, .array items) ∈ Table.sorted (node.dependentRequired?.getD []) →
    items.filterMap Json.string? ≠ [] → (key :: items.filterMap Json.string?).Nodup

/-- A pattern of the node admits further properties with keys of the type. -/
def Node.GivesKeys (node : Node) (key : KeyType) : Prop :=
  ∃ pattern fields, (pattern, Json.object fields) ∈
    Table.sorted (node.patternProperties?.getD []) ∧ keyTypeOfPattern pattern = key

/-- The node makes objects with distinct keys, where that is asked for, and mapped types with
keys that are allowed. -/
structure Node.Suits (distinct : Prop) (allowed : KeyType → Prop) (node : Node) : Prop where
  dependencies : distinct → node.DistinctDependencies
  patterns : ∀ key, node.GivesKeys key → allowed key

/-- A value that is given has the property. -/
def IfGiven (Q : Registry → α → Prop) (registry : Registry) (value? : Option α) : Prop :=
  ∀ value, value? = some value → Q registry value

/-- Every member of a list has the property. -/
def OfAll (Q : Registry → α → Prop) (registry : Registry) (values : List α) : Prop :=
  ∀ value ∈ values, Q registry value

section Lists

variable {Q : Registry → α → Prop} {registry : Registry}

theorem ifGiven_none : IfGiven Q registry none := nofun

theorem ifGiven_some {value : α} (h : Q registry value) : IfGiven Q registry (some value) := by
  intro _ heq
  cases heq
  exact h

theorem ofAll_nil : OfAll Q registry [] := fun _ h => absurd h List.not_mem_nil

theorem OfAll.cons {value : α} {values : List α} (h : Q registry value)
    (hvalues : OfAll Q registry values) : OfAll Q registry (value :: values) := by
  intro other hother
  rcases List.mem_cons.mp hother with rfl | hrest
  · exact h
  · exact hvalues other hrest

theorem ofAll_singleton {value : α} (h : Q registry value) : OfAll Q registry [value] :=
  ofAll_nil.cons h

theorem OfAll.append {values more : List α} (h : OfAll Q registry values)
    (hmore : OfAll Q registry more) : OfAll Q registry (values ++ more) := by
  intro value hvalue
  rcases List.mem_append.mp hvalue with hleft | hright
  · exact h value hleft
  · exact hmore value hright

theorem ofAll_filterMap {values : List (Option α)} (h : OfAll (IfGiven Q) registry values) :
    OfAll Q registry (values.filterMap id) := by
  intro value hvalue
  obtain ⟨value?, hmem, hsome⟩ := List.mem_filterMap.mp hvalue
  exact h value? hmem value hsome

end Lists

/-! ### Keys of patterns -/

theorem keyTypeOfPattern_printable (pattern : String) : (keyTypeOfPattern pattern).Printable := by
  have hkey : ∀ (text : List Char) (alone : Bool),
      (if text.isEmpty || text.any patternSpecials.contains then KeyType.any
        else if alone then .exactly (String.ofList text)
        else .startingWith (String.ofList text)).Printable := by
    intro text alone
    split
    · exact nofun
    · rename_i hspecials
      split
      · exact nofun
      · intro text' htext
        cases htext
        rw [String.toList_ofList]
        intro htick
        rw [Bool.or_eq_true, not_or] at hspecials
        apply hspecials.2
        rw [List.any_eq_true]
        exact ⟨'`', htick, by decide⟩
  unfold keyTypeOfPattern
  split
  · exact nofun
  split
  · exact hkey _ _
  · exact nofun

theorem Node.printable_of_givesKeys (node : Node) (key : KeyType) (h : node.GivesKeys key) :
    key.Printable := by
  obtain ⟨pattern, -, -, rfl⟩ := h
  exact keyTypeOfPattern_printable pattern

/-! ### Types that are made without compiling -/

section Made

variable {distinct : Prop} {allowed : KeyType → Prop} {P : TypeExpr → Prop}
  (hP : ComposesWith distinct allowed P)
include hP

theorem orNull_composes (node : Node) {type : TypeExpr} (h : P type) : P (orNull node type) := by
  unfold orNull
  split
  · exact hP.union_pair h hP.null
  · exact h

theorem literalValues?_composes {schema : Json} {literals : List Literal}
    (h : literalValues? schema = some literals) : ∀ l ∈ literals, P (.literal l) := by
  unfold literalValues? at h
  obtain ⟨node, -, h⟩ := Option.bind_eq_some_iff.mp h
  intro l hl
  split at h
  · obtain ⟨literal, hliteral, heq⟩ := Option.bind_eq_some_iff.mp h
    cases heq
    obtain rfl := List.mem_singleton.mp hl
    exact hP.literal hliteral
  · obtain ⟨values, -, h⟩ := Option.bind_eq_some_iff.mp h
    simp only at h
    split at h
    · cases h
    · cases h
      obtain ⟨v, -, hv⟩ := List.mem_filterMap.mp hl
      exact hP.literal hv

theorem pinnedProperty?_composes {condition : Json} {name : String} {literals : List Literal}
    (h : pinnedProperty? condition = some (name, literals)) :
    ∀ l ∈ literals, P (.literal l) := by
  unfold pinnedProperty? at h
  obtain ⟨node, -, h⟩ := Option.bind_eq_some_iff.mp h
  obtain ⟨properties, -, h⟩ := Option.bind_eq_some_iff.mp h
  split at h
  · obtain ⟨values, hvalues, heq⟩ := Option.bind_eq_some_iff.mp h
    cases heq
    exact literalValues?_composes hP hvalues
  · cases h

/-- The declared literals that are not pinned have the property. -/
theorem remaining_composes (properties : Table Json) (name : String) (pinned : List Literal) :
    ∀ l ∈ (((properties.get? name).bind literalValues?).getD []).filter
      (fun literal => !pinned.contains literal), P (.literal l) := by
  intro l hl
  have hmem := (List.mem_filter.mp hl).1
  cases hdeclared : (properties.get? name).bind literalValues? with
  | none =>
    rw [hdeclared] at hmem
    exact absurd hmem List.not_mem_nil
  | some declared =>
    rw [hdeclared] at hmem
    obtain ⟨schema, -, hschema⟩ := Option.bind_eq_some_iff.mp hdeclared
    exact literalValues?_composes hP hschema l hmem

theorem narrow_composes {base : TypeExpr} (hbase : P base) (name : String)
    {literals : List Literal} (hliterals : ∀ l ∈ literals, P (.literal l)) :
    P (narrow base name literals) := by
  unfold narrow
  split
  · exact hbase
  · refine hP.intersection_pair hbase (hP.objectOf (fun _ => List.nodup_singleton _) fun f hf => ?_)
    obtain rfl := List.mem_singleton.mp hf
    apply hP.unionOf
    intro part hpart
    obtain ⟨l, hl, rfl⟩ := List.mem_map.mp hpart
    exact hliterals l hl

end Made

/-- The types of a node's rules for further properties have the property, and their keys are
allowed. -/
structure ExtraProperties.All (allowed : KeyType → Prop) (P : TypeExpr → Prop)
    (extra : ExtraProperties) : Prop where
  additional : ∀ type, extra.additional = some type → P type
  patterns : ∀ entry ∈ extra.patterns, allowed entry.1 ∧ P entry.2

namespace ExtraProperties.All

variable {distinct : Prop} {allowed : KeyType → Prop} {P : TypeExpr → Prop}
  {extra : ExtraProperties}

theorem patternType? (h : extra.All allowed P) (hP : ComposesWith distinct allowed P)
    {type value : TypeExpr} (htype : extra.patternType? = some (type, value)) :
    P type ∧ P value := by
  unfold ExtraProperties.patternType? at htype
  split at htype
  · cases htype
  have hvalue : P (TypeExpr.unionDistinct (extra.patterns.map Prod.snd)) := by
    apply hP.unionDistinct
    intro part hpart
    obtain ⟨entry, hentry, rfl⟩ := List.mem_map.mp hpart
    exact (h.patterns entry hentry).2
  simp only at htype
  split at htype
  · cases htype
    exact ⟨hP.record hvalue, hvalue⟩
  · rename_i hany
    cases htype
    refine ⟨hP.mapped (fun key hkey => ?_) hvalue, hvalue⟩
    obtain ⟨entry, hentry, rfl⟩ := List.mem_map.mp (KeyType.mem_of_mem_unionDistinct hany hkey)
    exact (h.patterns entry hentry).1

theorem type? (h : extra.All allowed P) (hP : ComposesWith distinct allowed P) :
    ∀ type, extra.type? = some type → P type := by
  intro type htype
  unfold ExtraProperties.type? at htype
  split at htype
  · rename_i additional pattern value hadditional hpattern
    cases htype
    obtain ⟨hpatternType, hvalue⟩ := h.patternType? hP hpattern
    refine hP.intersection_pair hpatternType (hP.record (hP.unionDistinct ?_))
    intro part hpart
    rcases List.mem_cons.mp hpart with rfl | hrest
    · exact h.additional _ hadditional
    · exact List.mem_singleton.mp hrest ▸ hvalue
  · rename_i additional hadditional _
    cases htype
    exact hP.record (h.additional additional hadditional)
  · rename_i pattern value _ hpattern
    cases htype
    exact (h.patternType? hP hpattern).1
  · cases htype

theorem undeclaredObject (h : extra.All allowed P) (hP : ComposesWith distinct allowed P)
    {required : List String} (hrequired : required.Nodup) :
    P (undeclaredObject required extra) := by
  have hbase :
      P (TypeExpr.objectOf (required.map fun name => Field.required name .unknown)) := by
    apply hP.objectOf
    · intro _
      rw [List.map_map]
      exact (List.map_id required).symm ▸ hrequired
    · intro f hf
      obtain ⟨name, -, rfl⟩ := List.mem_map.mp hf
      exact hP.unknown
  unfold Schema.undeclaredObject
  split
  · split
    · exact h.type? hP _ (by assumption)
    · apply hP.record
      split
      · exact hP.never
      · exact hP.unknown
  · simp only
    split
    · exact hP.intersection_pair hbase (h.type? hP _ (by assumption))
    · exact hbase

theorem baseType (h : extra.All allowed P) (hP : ComposesWith distinct allowed P)
    {fields : List (Field TypeExpr)} {constraints : List TypeExpr}
    (hnames : (fields.map Field.name).Nodup) (hfields : ∀ f ∈ fields, P f.type)
    (hconstraints : ∀ type ∈ constraints, P type) :
    P (baseType fields extra constraints) := by
  have hextended : P (extendedType fields extra) := by
    unfold extendedType
    split
    · exact hP.intersection_pair (hP.objectOf (fun _ => hnames) hfields)
        (h.type? hP _ (by assumption))
    · exact hP.objectOf (fun _ => hnames) hfields
  unfold Schema.baseType
  split
  · exact hextended
  · apply hP.intersection
    intro part hpart
    rcases List.mem_cons.mp hpart with rfl | hrest
    · exact hextended
    · exact hconstraints part hrest

end ExtraProperties.All

theorem mem_combinators_of_found {node : Node} {c : Combinator} {branches : List Json}
    (h : combinator? node = some (c, branches)) : c ∈ combinators := by
  obtain ⟨found, hfound, hlist⟩ := List.exists_of_findSome?_eq_some h
  obtain ⟨_, -, heq⟩ := Option.map_eq_some_iff.mp hlist
  cases heq
  exact hfound

/-- A node with a combinator, and no other, is given its type by it. -/
theorem compileCombinator_value_isSome (child : Child) (node : Node) (scope : Scope)
    (registry : Registry) :
    ((compileCombinator child node scope).run registry).value.isSome =
      (combinator? node).isSome := by
  unfold compileCombinator
  cases combinator? node <;> rfl

/-! ### Names of fields -/

theorem nodup_distinctNames (names : List String) : (distinctNames names).Nodup :=
  Table.nodup_keys_sorted _

namespace KeptInTypesWith

variable {distinct : Prop} {allowed : KeyType → Prop} {Q : Registry → TypeExpr → Prop}
  (hQ : KeptInTypesWith distinct allowed Q)
include hQ

/-! ### Literals and enums -/

theorem emitEnum (hint : String) (values : List Json) (nullable : Bool) :
    (emitEnum hint values nullable).Ensures (IfGiven Q) := by
  refine EnumCall.ensures ⟨hint, values, nullable⟩ (fun _ _ => ifGiven_none) ?_
  rintro members name registry - hfound ⟨n, hname⟩
  have href : Q registry (.enumRef name) := by
    apply hQ.enumRef hfound
    rw [hname]
    exact EnumDecl.spelled_candidate (EnumDecl.spelled_baseName hint values) n
  apply ifGiven_some
  simp only [EnumCall.usage]
  split
  · exact (hQ.composes registry).union_pair href (hQ.composes registry).null
  · exact href

theorem compileListed (node : Node) (scope : Scope) :
    (compileListed node scope).Ensures (IfGiven Q) := by
  unfold Schema.compileListed
  cases node.enumValues? with
  | none => exact Ensures.pure fun _ => ifGiven_none
  | some values =>
    refine Ensures.bind (hQ.emitEnum scope.hint values node.nullable) fun type? => ?_
    cases type? with
    | some type => exact Ensures.pure fun _ htype => htype
    | none =>
      cases hliterals : values.mapM Literal.ofJson? with
      | none =>
        refine Ensures.pure fun registry _ => ifGiven_some ?_
        exact orNull_composes (hQ.composes registry) node (hQ.composes registry).unknown
      | some literals =>
        refine Ensures.pure fun registry _ => ifGiven_some ?_
        apply orNull_composes (hQ.composes registry)
        apply (hQ.composes registry).union
        intro part hpart
        obtain ⟨l, hl, rfl⟩ := List.mem_map.mp hpart
        obtain ⟨v, -, hv⟩ := exists_left_of_mem (forall₂_of_mapM_eq_some hliterals) hl
        exact (hQ.composes registry).literal hv

theorem compileLiteral (node : Node) (scope : Scope) :
    (compileLiteral node scope).Ensures (IfGiven Q) := by
  unfold Schema.compileLiteral
  cases node.const? with
  | none => exact hQ.compileListed node scope
  | some value =>
    refine Ensures.bind (hQ.emitEnum scope.hint [value] node.nullable) fun type? => ?_
    cases type? with
    | some type => exact Ensures.pure fun _ htype => htype
    | none =>
      cases hliteral : Literal.ofJson? value with
      | none => exact (hQ.compileListed node scope).mono fun _ _ h _ => h
      | some l =>
        refine Ensures.pure fun registry _ => ifGiven_some ?_
        have hl := (hQ.composes registry).literal hliteral
        exact orNull_composes (hQ.composes registry) node hl

section Layer

variable {child : Child} (hchild : ∀ scope schema, (child scope schema).Ensures Q) (node : Node)
include hchild

/-! ### Combinators and lists -/

theorem compileCombinator (scope : Scope) :
    (compileCombinator child node scope).Ensures (IfGiven Q) := by
  unfold Schema.compileCombinator
  cases hcombinator : combinator? node with
  | none => exact Ensures.pure fun _ => ifGiven_none
  | some found =>
    obtain ⟨c, branches⟩ := found
    have hc := mem_combinators_of_found hcombinator
    refine Ensures.last (Ensures.mapM_mem (R := Q) fun indexed _ => hchild _ indexed.1) ?_
    intro registry parts hparts
    apply ifGiven_some
    apply orNull_composes (hQ.composes registry)
    simp only [combinators, List.mem_cons, List.not_mem_nil, or_false] at hc
    rcases hc with rfl | rfl | rfl
    · exact (hQ.composes registry).union hparts
    · exact (hQ.composes registry).union hparts
    · exact (hQ.composes registry).intersection hparts

theorem compileArray (scope : Scope) : (compileArray child node scope).Ensures Q := by
  unfold Schema.compileArray
  cases node.items? with
  | none =>
    exact Ensures.pure fun registry => (hQ.composes registry).array (hQ.composes registry).unknown
  | some items => exact Ensures.last (hchild _ items) fun registry _ => (hQ.composes registry).array

/-! ### Further properties -/

omit hQ in
theorem compilePatterns (scope : Scope) (hkeys : ∀ key, node.GivesKeys key → allowed key) :
    (compilePatterns child node scope).Ensures
      (OfAll fun registry entry => allowed entry.1 ∧ Q registry entry.2) := by
  unfold Schema.compilePatterns
  refine Ensures.last (Ensures.mapM_mem (R := IfGiven fun registry (entry : KeyType × TypeExpr) =>
    allowed entry.1 ∧ Q registry entry.2) ?_) fun _ _ h => ofAll_filterMap h
  rintro ⟨⟨pattern, schema⟩, i⟩ hentry
  cases schema with
  | object fields =>
    refine Ensures.last (hchild _ _) fun _ _ htype => ifGiven_some ⟨hkeys _ ?_, htype⟩
    exact ⟨pattern, fields, List.fst_mem_of_mem_zipIdx hentry, rfl⟩
  | _ => exact Ensures.pure fun _ => ifGiven_none

theorem compileExtra (scope : Scope) (hkeys : ∀ key, node.GivesKeys key → allowed key) :
    (compileExtra child node scope).Ensures fun registry extra =>
      extra.All allowed (Q registry) := by
  unfold Schema.compileExtra
  refine Ensures.bind (compilePatterns hchild node scope hkeys) fun patterns => ?_
  split
  · exact Ensures.pure fun registry hpatterns =>
      ⟨ifGiven_some (hQ.composes registry).unknown, hpatterns⟩
  · exact Ensures.pure fun _ hpatterns => ⟨nofun, hpatterns⟩
  · exact Ensures.last (hchild _ _) fun _ _ htype hpatterns => ⟨ifGiven_some htype, hpatterns⟩
  · exact Ensures.pure fun _ hpatterns => ⟨nofun, hpatterns⟩

/-! ### Requirements between properties -/

theorem propertyType (properties : Table Json) (name : String) (scope : Scope) :
    (propertyType child properties name scope).Ensures Q := by
  unfold Schema.propertyType
  split
  · exact hchild _ _
  · exact Ensures.pure fun registry => (hQ.composes registry).unknown

theorem compileDependency (properties : Table Json) (required : List String) (scope : Scope)
    {key : String} {names : List String}
    (hnames : distinct → names ≠ [] → (key :: names).Nodup) :
    (compileDependency child properties required scope key names).Ensures (IfGiven Q) := by
  unfold Schema.compileDependency
  refine Ensures.bind (Ensures.mapM (Q := fun name registry (f : Field TypeExpr) =>
    name = f.name ∧ Q registry f.type) ?_) fun dependents => ?_
  · intro name _
    exact Ensures.last (hQ.propertyType hchild properties name scope) fun _ _ h => ⟨rfl, h⟩
  split
  · exact Ensures.pure fun _ _ => ifGiven_none
  rename_i hdependents
  refine Ensures.bind (hQ.propertyType hchild properties key scope) fun keyType => ?_
  have hpresent : ∀ registry, Q registry keyType →
      List.Forall₂ (fun name (f : Field TypeExpr) => name = f.name ∧ Q registry f.type)
        names dependents →
      Q registry (TypeExpr.objectOf (Field.required key keyType :: dependents)) := by
    intro registry hkey hmade
    apply (hQ.composes registry).objectOf
    · intro hdistinct
      have hmap : names = dependents.map Field.name := by
        simpa using map_eq_of_forall₂ (f := id) hmade fun _ _ h => h.1
      rw [List.map_cons, ← hmap]
      refine hnames hdistinct fun hnil => hdependents ?_
      rw [← isEmpty_eq_of_forall₂ hmade, hnil, List.isEmpty_nil]
    · intro f hf
      rcases List.mem_cons.mp hf with rfl | hrest
      · exact hkey
      · obtain ⟨_, _, _, htype⟩ := exists_left_of_mem hmade hrest
        exact htype
  split
  · exact Ensures.pure fun registry hkey hmade => ifGiven_some (hpresent registry hkey hmade)
  · refine Ensures.pure fun registry hkey hmade => ifGiven_some ?_
    refine (hQ.composes registry).union_pair ?_ (hpresent registry hkey hmade)
    refine (hQ.composes registry).objectOf (fun _ => List.nodup_singleton key) fun f hf => ?_
    obtain rfl := List.mem_singleton.mp hf
    exact (hQ.composes registry).never

theorem compileDependencies (properties : Table Json) (required : List String) (scope : Scope)
    (hnode : distinct → node.DistinctDependencies) :
    (compileDependencies child node properties required scope).Ensures (OfAll Q) := by
  unfold Schema.compileDependencies
  refine Ensures.last (Ensures.mapM_mem (R := IfGiven Q) ?_) fun _ _ => ofAll_filterMap
  rintro ⟨key, names⟩ hentry
  cases names with
  | array items =>
    exact hQ.compileDependency hchild properties required scope fun hdistinct =>
      hnode hdistinct key items hentry
  | _ => exact Ensures.pure fun _ => ifGiven_none

/-! ### Conditions -/

omit hQ in
theorem compileOutcome {R : Registry → List TypeExpr → Prop} (scope : Scope) (segment : String)
    {make : TypeExpr → TypeExpr} {absent : List TypeExpr} (schema? : Option Json)
    (hmake : ∀ registry type, Q registry type → R registry [make type])
    (habsent : ∀ registry, R registry absent) :
    (compileOutcome child scope segment make absent schema?).Ensures R := by
  cases schema? with
  | some schema => exact Ensures.last (hchild _ schema) hmake
  | none => exact Ensures.pure habsent

theorem compileDiscriminated (properties : Table Json) (base : TypeExpr) (scope : Scope)
    (name : String) {pinned : List Literal}
    (hpinned : ∀ registry, ∀ l ∈ pinned, Q registry (.literal l)) :
    (compileDiscriminated child node properties base scope name pinned).Ensures
      fun registry types => Q registry base → OfAll Q registry types := by
  have hremaining : ∀ registry, Q registry base → Q registry (narrow base name
      ((((properties.get? name).bind literalValues?).getD []).filter
        fun literal => !pinned.contains literal)) := fun registry hbase =>
    narrow_composes (hQ.composes registry) hbase name
      (remaining_composes (hQ.composes registry) properties name pinned)
  rw [compileDiscriminated_eq]
  refine Ensures.bind (Q := fun registry types => Q registry base → OfAll Q registry types)
    (compileOutcome hchild scope "Then" _ ?_ fun _ _ => ofAll_nil) fun thenPart => ?_
  · intro registry type htype hbase
    apply ofAll_singleton
    exact (hQ.composes registry).intersection_pair
      (narrow_composes (hQ.composes registry) hbase name (hpinned registry)) htype
  refine Ensures.last (Q := fun registry types => Q registry base → OfAll Q registry types)
    (compileOutcome hchild scope "Else" _ ?_ fun registry hbase => ?_) ?_
  · intro registry type htype hbase
    exact ofAll_singleton
      ((hQ.composes registry).intersection_pair (hremaining registry hbase) htype)
  · split
    · exact ofAll_nil
    · exact ofAll_singleton (hremaining registry hbase)
  · exact fun _ _ helse hthen hbase => (hthen hbase).append (helse hbase)

omit hQ in
theorem compileBranches (scope : Scope) :
    (compileBranches child node scope).Ensures (OfAll Q) := by
  have hsingle : ∀ registry type, Q registry type → OfAll Q registry [id type] :=
    fun _ _ => ofAll_singleton
  rw [compileBranches_eq]
  refine Ensures.bind (compileOutcome hchild scope "Then" _ hsingle fun _ => ofAll_nil) ?_
  intro thenPart
  refine Ensures.bind (compileOutcome hchild scope "Else" _ hsingle fun _ => ofAll_nil) ?_
  intro elsePart
  split
  · exact (compileOutcome hchild scope "If" _ hsingle fun _ => ofAll_nil).mono
      fun _ _ h _ _ => h
  · exact Ensures.pure fun _ helse hthen => hthen.append helse

theorem settleCondition (base : TypeExpr) (scope : Scope) (discriminated : List TypeExpr) :
    (settleCondition child node base scope discriminated).Ensures fun registry type =>
      Q registry base → OfAll Q registry discriminated → Q registry type := by
  unfold Schema.settleCondition
  split
  · exact Ensures.pure fun _ _ hall => hall _ (List.mem_singleton.mpr rfl)
  · exact Ensures.pure fun registry _ hall => (hQ.composes registry).union hall
  · refine Ensures.bind (compileBranches hchild node scope) fun parts => ?_
    split
    · exact Ensures.pure fun _ _ hbase _ => hbase
    · exact Ensures.pure fun registry hparts hbase _ => (hQ.composes registry).intersection_pair
        hbase (hparts _ (List.mem_singleton.mpr rfl))
    · exact Ensures.pure fun registry hparts hbase _ => (hQ.composes registry).intersection_pair
        hbase ((hQ.composes registry).union hparts)

theorem compileConditional (properties : Table Json) (base : TypeExpr) (scope : Scope) :
    (compileConditional child node properties base scope).Ensures fun registry type =>
      Q registry base → Q registry type := by
  rw [compileConditional_eq]
  refine Ensures.bind (Q := fun registry types => Q registry base → OfAll Q registry types) ?_
    fun discriminated => ?_
  · split
    · rename_i name pinned hpinned
      obtain ⟨condition, -, hcondition⟩ := Option.bind_eq_some_iff.mp hpinned
      exact hQ.compileDiscriminated hchild node properties base scope name fun registry =>
        pinnedProperty?_composes (hQ.composes registry) hcondition
    · exact Ensures.pure fun _ _ => ofAll_nil
  · exact (hQ.settleCondition hchild node base scope discriminated).mono
      fun _ _ h hdiscriminated hbase => h hbase (hdiscriminated hbase)

/-! ### Objects -/

omit hQ in
/-- The fields of the declared properties have different names. -/
theorem compileFields (properties : Table Json) (required : List String) (scope : Scope) :
    (compileFields child properties required scope).Ensures fun registry fields =>
      (fields.map Field.name).Nodup ∧ ∀ f ∈ fields, Q registry f.type := by
  have hmade : (Schema.compileFields child properties required scope).Ensures
      fun registry fields => List.Forall₂ (fun (entry : String × Json) (f : Field TypeExpr) =>
        entry.1 = f.name ∧ Q registry f.type) _ fields :=
    Ensures.mapM fun entry _ => Ensures.last (hchild _ entry.2) fun _ _ h => ⟨rfl, h⟩
  refine hmade.mono fun registry fields hfields => ⟨?_, ?_⟩
  · rw [← map_eq_of_forall₂ hfields fun _ _ h => h.1]
    exact (Table.nodup_keys_sorted properties).sublist (List.filter_sublist.map Prod.fst)
  · intro f hf
    obtain ⟨_, _, _, htype⟩ := exists_left_of_mem hfields hf
    exact htype

theorem layCondition (base : TypeExpr) (scope : Scope) :
    (layCondition child node base scope).Ensures fun registry type =>
      Q registry base → Q registry type := by
  unfold Schema.layCondition
  split
  · exact hQ.compileConditional hchild node _ base scope
  · exact Ensures.pure fun _ hbase => hbase

theorem compileObject (scope : Scope) (hnode : node.Suits distinct allowed) :
    (compileObject child node scope).Ensures Q := by
  rw [compileObject_eq]
  refine Ensures.bind (hQ.compileDependencies hchild node _ _ scope hnode.dependencies)
    fun constraints => ?_
  refine Ensures.bind (hQ.compileExtra hchild node scope hnode.patterns) fun extra => ?_
  split
  · exact Ensures.pure fun registry hextra _ =>
      hextra.undeclaredObject (hQ.composes registry) (nodup_distinctNames _)
  refine Ensures.bind (compileFields hchild _ _ scope) fun fields => ?_
  refine (hQ.layCondition hchild node (baseType fields extra constraints) scope).mono ?_
  intro registry type h hfields hextra hconstraints
  exact h (hextra.baseType (hQ.composes registry) hfields.1 hfields.2 hconstraints)

/-! ### Declared types -/

theorem compileTypeName (scope : Scope) (name : String)
    (hnode : name = "object" → node.Suits distinct allowed) :
    (compileTypeName child node scope name).Ensures Q := by
  unfold Schema.compileTypeName
  split
  · exact Ensures.pure fun registry => (hQ.composes registry).string
  split
  · exact Ensures.pure fun registry => (hQ.composes registry).number
  split
  · exact Ensures.pure fun registry => (hQ.composes registry).boolean
  split
  · exact Ensures.pure fun registry => (hQ.composes registry).null
  split
  · exact hQ.compileArray hchild node scope
  split
  · rename_i hname
    exact hQ.compileObject hchild node _ (hnode hname)
  · exact Ensures.pure fun registry => (hQ.composes registry).unknown

theorem compileUntyped (scope : Scope)
    (hnode : looksLikeObject node = true → node.Suits distinct allowed) :
    (compileUntyped child node scope).Ensures Q := by
  have hnull : ∀ m : Compilation TypeExpr, m.Ensures Q →
      (m >>= fun type => pure (orNull node type)).Ensures Q := fun m hm =>
    Ensures.last hm fun registry _ => orNull_composes (hQ.composes registry) node
  unfold Schema.compileUntyped
  simp only
  split
  · rename_i hlooks
    exact hnull _ (hQ.compileObject hchild node _ (hnode hlooks))
  split
  · exact hnull _ (hQ.compileArray hchild node scope)
  · exact hnull _ (Ensures.pure fun registry => (hQ.composes registry).unknown)

theorem compileTyped (scope : Scope)
    (hnode : node.isTypedObject = true → node.Suits distinct allowed) :
    (compileTyped child node scope).Ensures Q := by
  unfold Node.isTypedObject at hnode
  unfold Schema.compileTyped
  split
  · rename_i htypes
    rw [htypes] at hnode
    exact hQ.compileUntyped hchild node scope hnode
  · rename_i single htypes
    rw [htypes] at hnode
    refine Ensures.last (hQ.compileTypeName hchild node scope single ?_)
      fun registry type htype => ?_
    · rintro rfl
      exact hnode (by simp)
    split
    · exact htype
    · exact orNull_composes (hQ.composes registry) node htype
  · rename_i hnil _
    refine Ensures.last (Ensures.mapM_mem fun name hname =>
      hQ.compileTypeName hchild node scope name ?_) fun registry parts hparts => ?_
    · rintro rfl
      apply hnode
      split
      · exact absurd (by assumption) hnil
      · exact List.contains_iff_mem.mpr hname
    have hunion := (hQ.composes registry).unionDistinct hparts
    split
    · exact hunion
    · exact orNull_composes (hQ.composes registry) node hunion

theorem compileNode (scope : Scope)
    (hnode : node.isObject = true → node.Suits distinct allowed) :
    (compileNode child node scope).Ensures Q := by
  unfold Schema.compileNode
  refine Ensures.bind_of_value (p := fun type? => type?.isSome = node.isListed)
    (hQ.compileLiteral node scope) (compileLiteral_value_isSome node scope)
    fun literal? hlisted => ?_
  cases literal? with
  | some type => exact Ensures.pure fun _ hliteral => hliteral type rfl
  | none =>
    refine Ensures.bind_of_value (p := fun type? => type?.isSome = (combinator? node).isSome)
      (hQ.compileCombinator hchild node scope)
      (compileCombinator_value_isSome child node scope) fun combined? hcombined => ?_
    cases combined? with
    | some type => exact Ensures.pure fun _ hgiven _ => hgiven type rfl
    | none =>
      refine (hQ.compileTyped hchild node scope fun htyped => ?_).mono
        fun _ _ h _ _ => h
      have hnone : combinator? node = none := by simpa using hcombined.symm
      apply hnode
      rw [Node.isObject, ← hlisted, htyped, hnone]
      rfl

end Layer

end KeptInTypesWith

/-- An object of a node whose requirements between properties name each property once. -/
theorem KeptInTypesWhere.compileObject {distinct : Prop} {Q : Registry → TypeExpr → Prop}
    (hQ : KeptInTypesWhere distinct Q) {child : Child}
    (hchild : ∀ scope schema, (child scope schema).Ensures Q) (node : Node) (scope : Scope)
    (hnode : distinct → node.DistinctDependencies) : (compileObject child node scope).Ensures Q :=
  KeptInTypesWith.compileObject hQ hchild node scope ⟨hnode, node.printable_of_givesKeys⟩

/-! ### Stacked layers -/

namespace KeptInTypes

variable {Q : Registry → TypeExpr → Prop} (hQ : KeptInTypes Q)
include hQ

theorem keptByLayers : KeptByLayers fun m : Compilation TypeExpr => m.Ensures Q where
  unknown := Ensures.pure fun registry => (hQ.composes registry).unknown
  exhausted event := Ensures.bind (Ensures.note event (Q := fun _ _ => True) fun _ => trivial)
    fun _ => Ensures.pure fun registry _ => (hQ.composes registry).unknown
  component name := Ensures.pure fun registry => hQ.component registry name
  node hchild node scope :=
    hQ.compileNode hchild node scope fun _ => ⟨nofun, node.printable_of_givesKeys⟩

theorem compile (schemas : Table (RefOr Json)) (slot : RefOr Json) (scope : Scope) :
    (compile schemas slot scope).Ensures Q :=
  hQ.keptByLayers.compile schemas slot scope

theorem compileOptional (schemas : Table (RefOr Json)) (slot : Option (RefOr Json))
    (scope : Scope) : (compileOptional schemas slot scope).Ensures Q := by
  cases slot with
  | some slot => exact hQ.compile schemas slot scope
  | none => exact Ensures.pure fun registry => (hQ.composes registry).unknown

end KeptInTypes

theorem keptInTypes_atomic : KeptInTypes fun _ type => type.Atomic where
  composes _ := TypeExpr.composes_atomic
  enumRef _ hname := TypeExpr.atomic_enumRef hname.isBare
  component _ name := TypeExpr.atomic_component .schemas name

end OpenApiTypings.Schema
