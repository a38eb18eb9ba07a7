import OpenApiTypings.Proofs.Schema.Object
import OpenApiTypings.Proofs.Type.Render

/-!
# Soundness of the compiler

Every value that a plain schema admits lies in the type it is compiled to, whatever the
scope, the registry and the component schemas are.  The proof follows the layers: a node
is sound when the schemas nested in it are, and the layers are stacked by induction on
the levels that are left.

The reading of nodes without a type matters.  Such a node may be compiled to an object
type or a list type because of its keywords, and by the standard reading it admits
values of every kind.
-/

namespace OpenApiTypings.Schema

open TypeExpr
open Json (Kind)

/-! ### Kinds of types -/

/-- The type is written in the form for a kind of values. -/
def KindForm (type : TypeExpr) : Kind → Prop
  | .string => type = .string
  | .number => type = .number
  | .boolean => type = .boolean
  | .null => type = .null
  | .array => ∃ item, type = .array item
  | .object => ObjectForm type
  | .any => type = .unknown

/-- The kind that the text of a type is written for; it shows at the end of the text. -/
def kindOfText? (text : String) : Option Kind :=
  match text.toList.getLast? with
  | none => none
  | some 'g' => some .string
  | some 'r' => some .number
  | some 'l' => some .null
  | some ']' => some .array
  | some 'n' => if text = "boolean" then some .boolean else some .any
  | some _ => some .object

theorem kindOfText?_append (front : String) {ending : String} {c : Char} {kind : Kind}
    (hending : ending.toList = [c])
    (hc : (c = ']' ∧ kind = .array) ∨ (c ∈ ['\x7d', '>', ')'] ∧ kind = .object)) :
    kindOfText? (front ++ ending) = some kind := by
  have hlast : (front ++ ending).toList.getLast? = some c := by
    rw [String.toList_append, hending, List.getLast?_concat]
  unfold kindOfText?
  rw [hlast]
  rcases hc with ⟨rfl, rfl⟩ | ⟨hmem, rfl⟩
  · rfl
  · simp only [List.mem_cons, List.not_mem_nil, or_false] at hmem
    rcases hmem with rfl | rfl | rfl <;> rfl

theorem kindOfText?_objectForm {type : TypeExpr} (h : ObjectForm type) :
    kindOfText? type.render = some .object := by
  cases type with
  | object fields =>
    rw [render_object, Field.objectText]
    split
    · decide
    · exact kindOfText?_append _ (c := '\x7d') (by decide) (Or.inr ⟨by decide, rfl⟩)
  | record value =>
    rw [render_record]
    exact kindOfText?_append _ (c := '>') (by decide) (Or.inr ⟨by decide, rfl⟩)
  | intersection parts =>
    rw [render_intersection]
    exact kindOfText?_append _ (c := ')') (by decide) (Or.inr ⟨by decide, rfl⟩)
  | _ => exact h.elim

theorem kindOfText?_kindForm {type : TypeExpr} {kind : Kind} (h : KindForm type kind) :
    kindOfText? type.render = some kind := by
  cases kind with
  | array =>
    obtain ⟨item, rfl⟩ := h
    have htext : (array item).render = (item.render ++ "[") ++ "]" := by
      have hpair : "[]" = "[" ++ "]" := by decide
      rw [render_array, hpair, ← String.append_assoc]
    rw [htext]
    exact kindOfText?_append _ (c := ']') (by decide) (Or.inl ⟨rfl, rfl⟩)
  | object => exact kindOfText?_objectForm h
  | _ =>
    cases h
    decide

section Layer

variable (lookups : Section → String → Json → Prop) {child : Child} {node : Node}

/-- The type is written for a kind and has all values of the kind that meet the node. -/
def KindCovers (node : Node) (kind : Kind) (registry : Registry) (type : TypeExpr) : Prop :=
  KindForm type kind ∧
    ∀ v, node.Meets .inferred v → v.HasKind kind → type.Denotes lookups registry v

/-- A value lies in the union of the types for several type names when it lies in every
type for its own kind. -/
theorem denotes_unionDistinct_of_kind {registry : Registry} {names : List String}
    {parts : List TypeExpr}
    (hparts : List.Forall₂
      (fun name type => KindCovers lookups node (Kind.ofName name) registry type) names parts)
    {name : String} (hname : name ∈ names) {v : Json}
    (hv : ∀ type, KindCovers lookups node (Kind.ofName name) registry type →
      type.Denotes lookups registry v) :
    (unionDistinct parts).Denotes lookups registry v := by
  obtain ⟨part, hpart, hcovers⟩ := exists_right_of_mem hparts hname
  have hkind := kindOfText?_kindForm hcovers.1
  refine denotes_unionDistinct hpart ?_ ?_
  · intro hempty
    rw [hempty] at hkind
    cases hkind
  · intro other hother hsame
    obtain ⟨otherName, -, hotherCovers⟩ := exists_left_of_mem hparts hother
    have hotherKind := kindOfText?_kindForm hotherCovers.1
    rw [hsame, hkind] at hotherKind
    rw [← Option.some.inj hotherKind] at hotherCovers
    exact hv other hotherCovers

section Children

variable (hchild : SoundChild lookups child) (hplain : Plain (.object node.entries))
include hchild hplain

/-! ### Combinators -/

omit hchild hplain in
/-- The branches of a node are combined in the sense of their keyword. -/
theorem denotes_combine {c : Combinator} {branches : List Json} (hc : c ∈ combinators)
    (hlist : node.list? c.keyword = some branches) {registry : Registry}
    {parts : List TypeExpr}
    (hparts : List.Forall₂ (fun branch type => Covers lookups branch registry type)
      branches parts)
    {v : Json} (hmeets : node.Meets .inferred v) :
    (c.combine parts).Denotes lookups registry v := by
  have hunion : (∃ i : Fin branches.length, Admits .inferred (branches.get i) v) →
      (union parts).Denotes lookups registry v := by
    rintro ⟨i, hi⟩
    obtain ⟨part, hpart, hcovers⟩ := exists_right_of_mem hparts (List.get_mem branches i)
    exact denotes_union.mpr ⟨part, hpart, hcovers v hi⟩
  simp only [combinators, List.mem_cons, List.not_mem_nil, or_false] at hc
  rcases hc with rfl | rfl | rfl
  · exact hunion (hmeets.oneOf branches hlist).exists
  · exact hunion (hmeets.anyOf branches hlist)
  · refine denotes_intersection.mpr fun part hpart => ?_
    obtain ⟨branch, hbranch, hcovers⟩ := exists_left_of_mem hparts hpart
    obtain ⟨i, rfl⟩ := List.mem_iff_get.mp hbranch
    exact hcovers v (hmeets.allOf branches hlist i)

theorem compileCombinator_ensures (scope : Scope) :
    (compileCombinator child node scope).Ensures
      (node.Settles lookups (combinator? node = none)) := by
  unfold compileCombinator
  cases hcombinator : combinator? node with
  | none => exact Compilation.Ensures.pure fun _ => rfl
  | some found =>
    obtain ⟨c, branches⟩ := found
    obtain ⟨c', hc, hfound⟩ := List.exists_of_findSome?_eq_some hcombinator
    obtain ⟨branches', hlist, heq⟩ := Option.map_eq_some_iff.mp hfound
    cases heq
    have hkeyword : c.keyword ∈ ["oneOf", "anyOf", "allOf"] := by
      have hmem := List.mem_map_of_mem (f := Combinator.keyword) hc
      exact hmem
    refine Compilation.Ensures.bind (Compilation.Ensures.mapM (Q := fun indexed registry type =>
      Covers lookups indexed.1 registry type) ?_) fun parts => ?_
    · intro indexed hindexed
      have hbranch : indexed.1 ∈ branches := by
        have hmem := List.mem_map_of_mem (f := Prod.fst) hindexed
        rwa [List.zipIdx_map_fst] at hmem
      exact hchild _ _ (hplain.branches hkeyword hlist hbranch)
    · refine Compilation.Ensures.pure fun registry hparts => Node.covers_orNull ?_
      intro v hmeets
      have hbranches : List.Forall₂ (fun branch type => Covers lookups branch registry type)
          (branches.zipIdx.map Prod.fst) parts := List.forall₂_map_left_iff.mpr hparts
      rw [List.zipIdx_map_fst] at hbranches
      exact denotes_combine lookups hc hlist hbranches hmeets

/-! ### Declared types -/

theorem compileArray_ensures (scope : Scope) :
    (compileArray child node scope).Ensures (KindCovers lookups node .array) := by
  unfold compileArray
  cases hitems : node.items? with
  | none =>
    refine Compilation.Ensures.pure fun registry => ⟨⟨_, rfl⟩, ?_⟩
    rintro v _ ⟨elements, rfl⟩
    exact ⟨elements, rfl, fun _ _ => trivial⟩
  | some items =>
    refine Compilation.Ensures.bind (hchild _ _ (hplain.items hitems)) fun type => ?_
    refine Compilation.Ensures.pure fun registry htype => ⟨⟨_, rfl⟩, ?_⟩
    rintro v hmeets ⟨elements, rfl⟩
    exact ⟨elements, rfl, fun x hx => htype x (hmeets.items items hitems elements rfl x hx)⟩

theorem compileTypeName_ensures (scope : Scope) (name : String) :
    (compileTypeName child node scope name).Ensures
      (KindCovers lookups node (Kind.ofName name)) := by
  unfold compileTypeName Kind.ofName
  split
  · exact Compilation.Ensures.pure fun _ => ⟨rfl, fun _ _ hv => hv⟩
  split
  · exact Compilation.Ensures.pure fun _ => ⟨rfl, fun _ _ hv => hv⟩
  split
  · exact Compilation.Ensures.pure fun _ => ⟨rfl, fun _ _ hv => hv⟩
  split
  · exact Compilation.Ensures.pure fun _ => ⟨rfl, fun _ _ hv => hv⟩
  split
  · exact compileArray_ensures lookups hchild hplain scope
  split
  · exact compileObject_ensures hchild hplain (scope.deeper 1)
  · exact Compilation.Ensures.pure fun _ => ⟨rfl, fun _ _ _ => trivial⟩

theorem compileUntyped_ensures (scope : Scope) (htypes : node.types = []) :
    (compileUntyped child node scope).Ensures fun registry type =>
      node.Undecided → node.Covers lookups registry type := by
  have hkind : ∀ m : Compilation TypeExpr,
      m.Ensures (KindCovers lookups node node.suggestedKind) →
      (m >>= fun type => pure (orNull node type)).Ensures fun registry type =>
        node.Undecided → node.Covers lookups registry type := by
    intro m hm
    refine Compilation.Ensures.bind hm fun type => ?_
    refine Compilation.Ensures.pure fun registry htype hundecided => Node.covers_orNull ?_
    intro v hmeets
    exact htype.2 v hmeets (hmeets.asserts.suggested rfl htypes hundecided)
  unfold Node.suggestedKind at hkind
  unfold compileUntyped
  by_cases hobject : looksLikeObject node = true
  · rw [if_pos hobject] at hkind ⊢
    exact hkind _ (compileObject_ensures hchild hplain (scope.deeper 1))
  rw [if_neg hobject] at hkind ⊢
  by_cases hitems : node.items?.isSome = true
  · rw [if_pos hitems] at hkind ⊢
    exact hkind _ (compileArray_ensures lookups hchild hplain scope)
  · rw [if_neg hitems] at hkind ⊢
    exact hkind _ (Compilation.Ensures.pure fun _ => ⟨rfl, fun _ _ _ => trivial⟩)

omit hchild hplain in
theorem denotes_null_of_kindCovers {name : String} (hname : name = "null")
    {registry : Registry} {type : TypeExpr}
    (h : KindCovers lookups node (Kind.ofName name) registry type) :
    type.Denotes lookups registry .null := by
  subst hname
  obtain rfl : type = .null := h.1
  rfl

theorem compileTyped_ensures (scope : Scope) :
    (compileTyped child node scope).Ensures fun registry type =>
      node.Undecided → node.Covers lookups registry type := by
  have hname := compileTypeName_ensures lookups hchild hplain scope
  unfold compileTyped
  split
  · rename_i htypes
    exact compileUntyped_ensures lookups hchild hplain scope htypes
  · rename_i single htypes
    refine Compilation.Ensures.bind (hname single) fun type => ?_
    refine Compilation.Ensures.pure fun registry htype _ => ?_
    have hmeets : ∀ v, node.Meets .inferred v → type.Denotes lookups registry v := by
      intro v hmeets
      rcases hmeets.asserts.type with hnone | ⟨name, hmem, hv⟩
      · rw [htypes] at hnone
        cases hnone
      · rw [htypes, List.mem_singleton] at hmem
        subst hmem
        exact htype.2 v hmeets hv.1
    split
    · rename_i hnull
      rintro v (⟨-, rfl⟩ | hv)
      · exact denotes_null_of_kindCovers lookups hnull htype
      · exact hmeets v hv
    · exact Node.covers_orNull hmeets
  · rename_i hempty _
    refine Compilation.Ensures.bind (Compilation.Ensures.mapM fun name _ => hname name) ?_
    intro parts
    refine Compilation.Ensures.pure fun registry hparts _ => ?_
    have hmeets : ∀ v, node.Meets .inferred v →
        (unionDistinct parts).Denotes lookups registry v := by
      intro v hmeets
      rcases hmeets.asserts.type with hnone | ⟨name, hmem, hv⟩
      · exact absurd hnone hempty
      · exact denotes_unionDistinct_of_kind lookups hparts hmem
          fun type htype => htype.2 v hmeets hv.1
    split
    · rename_i hnull
      rintro v (⟨-, rfl⟩ | hv)
      · exact denotes_unionDistinct_of_kind lookups hparts (List.contains_iff_mem.mp hnull)
          fun type htype => denotes_null_of_kindCovers lookups rfl htype
      · exact hmeets v hv
    · exact Node.covers_orNull hmeets

/-! ### Nodes -/

theorem compileNode_ensures (scope : Scope) :
    (compileNode child node scope).Ensures (Covers lookups (.object node.entries)) := by
  have hcovers : ∀ registry type, node.Covers lookups registry type →
      Covers lookups (.object node.entries) registry type := by
    intro registry type hnode v hv
    exact hnode v (admits_object.mp hv)
  unfold compileNode
  refine Compilation.Ensures.bind (compileLiteral_ensures lookups hplain.flat scope) ?_
  intro literal?
  cases literal? with
  | some type => exact Compilation.Ensures.pure fun registry htype => hcovers _ _ htype
  | none =>
    refine Compilation.Ensures.bind
      (compileCombinator_ensures lookups hchild hplain scope) fun combined? => ?_
    cases combined? with
    | some type => exact Compilation.Ensures.pure fun registry htype _ => hcovers _ _ htype
    | none =>
      refine (compileTyped_ensures lookups hchild hplain scope).mono ?_
      intro registry type htype hcombinators hlisted
      apply hcovers registry type (htype ⟨hlisted.1, hlisted.2, ?_⟩)
      have hnone := List.findSome?_eq_none_iff.mp hcombinators
      simp only [combinators, List.forall_mem_cons, Option.map_eq_none_iff] at hnone
      exact ⟨hnone.1, hnone.2.1, hnone.2.2.1⟩

end Children

/-! ### Stacked layers -/

theorem covers_unknown (schema : Json) (registry : Registry) :
    Covers lookups schema registry .unknown := fun _ _ => trivial

theorem compileNestedIn_sound (schemas : Table (RefOr Json)) (levels : Nat) :
    SoundChild lookups (compileNestedIn schemas levels) := by
  -- a plain schema has no references, so the level below is asked for children only
  induction levels with
  | zero =>
    intro scope schema _
    exact Compilation.Ensures.pure (covers_unknown lookups schema)
  | succ levels ih =>
    intro scope schema hplain
    rw [compileNestedIn, compileNestedWith]
    split
    · exact Compilation.Ensures.pure (covers_unknown lookups schema)
    cases hnode : Node.ofJson? schema with
    | none => exact Compilation.Ensures.pure (covers_unknown lookups schema)
    | some node =>
      obtain rfl := eq_object_of_ofJson? hnode
      simp only [hplain.flat.reference]
      split
      · refine Compilation.Ensures.bind (Q := fun _ _ => True) ?_ fun _ => ?_
        · exact Compilation.Ensures.note _ fun _ => trivial
        · exact Compilation.Ensures.pure fun registry _ => covers_unknown lookups _ registry
      · exact compileNode_ensures lookups ih hplain _

theorem compile_ensures (schemas : Table (RefOr Json)) {schema : Json}
    (hplain : Plain schema) (scope : Scope) :
    (compile schemas (.inline schema) scope).Ensures (Covers lookups schema) := by
  rw [compile, compileSlotWith]
  split
  · refine Compilation.Ensures.bind (Q := fun _ _ => True) ?_ fun _ => ?_
    · exact Compilation.Ensures.note _ fun _ => trivial
    · exact Compilation.Ensures.pure fun registry _ => covers_unknown lookups _ registry
  · cases hnode : Node.ofJson? schema with
    | none => exact Compilation.Ensures.pure (covers_unknown lookups schema)
    | some node =>
      obtain rfl := eq_object_of_ofJson? hnode
      simp only [hplain.flat.reference]
      exact compileNode_ensures lookups (compileNestedIn_sound lookups schemas levelCount)
        hplain scope

end Layer

/-- Every value that a plain schema admits by the inferred reading lies in the compiled
type, where enums have the values declared in the registry afterwards. -/
theorem compile_sound (lookups : Section → String → Json → Prop)
    (schemas : Table (RefOr Json)) (scope : Scope) (registry : Registry) {schema v : Json}
    (hplain : Plain schema) (hv : Admits .inferred schema v) :
    ((compile schemas (.inline schema) scope).run registry).value.Denotes lookups
      ((compile schemas (.inline schema) scope).run registry).enums v :=
  (compile_ensures lookups schemas hplain scope registry).2 _ (Registry.Reaches.refl _) v hv

theorem of_absent {α : Type} {value : Option α} {P : α → Prop} (h : value = none) :
    ∀ a, value = some a → P a := by
  intro a ha
  rw [h] at ha
  cases ha

/-- A node without combinators has plain branches. -/
theorem no_branches {node : Node} {P : List Json → Prop} (hone : node.list? "oneOf" = none)
    (hany : node.list? "anyOf" = none) (hall : node.list? "allOf" = none) :
    ∀ keyword ∈ ["oneOf", "anyOf", "allOf"], ∀ branches,
      node.list? keyword = some branches → P branches :=
  List.forall_mem_cons.mpr ⟨of_absent hone, List.forall_mem_cons.mpr
    ⟨of_absent hany, List.forall_mem_cons.mpr ⟨of_absent hall, List.forall_mem_nil _⟩⟩⟩

/-- A list of listed texts, and a list of one of them. -/
theorem compile_sound_array :
    Plain (.object [("type", .string "array"),
        ("items", .object [("enum", .array [.string "a", .string "b"])])]) ∧
      Admits .inferred (.object [("type", .string "array"),
          ("items", .object [("enum", .array [.string "a", .string "b"])])])
        (.array [.string "b"]) ∧
      ((compile [] (.inline (.object [("type", .string "array"),
          ("items", .object [("enum", .array [.string "a", .string "b"])])]))
          (Scope.top .component "Tags")).run Registry.empty).value.Denotes
        (fun _ _ _ => False)
        ((compile [] (.inline (.object [("type", .string "array"),
          ("items", .object [("enum", .array [.string "a", .string "b"])])]))
          (Scope.top .component "Tags")).run Registry.empty).enums
        (.array [.string "b"]) := by
  have hitem : Plain (.object [("enum", .array [.string "a", .string "b"])]) := by
    refine Plain.node ⟨rfl, rfl, rfl, fun _ => rfl, ?_, ?_⟩ (no_branches rfl rfl rfl)
      (of_absent rfl) (List.forall_mem_nil _) (of_absent rfl)
    · rintro n ⟨⟩
    · intro values hvalues n hn
      cases hvalues
      simp at hn
  have hplain : Plain (.object [("type", .string "array"),
      ("items", .object [("enum", .array [.string "a", .string "b"])])]) := by
    refine Plain.node ⟨rfl, rfl, rfl, fun _ => rfl, ?_, of_absent rfl⟩
      (no_branches rfl rfl rfl) ?_ (List.forall_mem_nil _) (of_absent rfl)
    · rintro n ⟨⟩
    · intro items hitems
      cases hitems
      exact hitem
  have hvalid : Admits .inferred (.object [("type", .string "array"),
      ("items", .object [("enum", .array [.string "a", .string "b"])])])
      (.array [.string "b"]) := by
    refine admits_object.mpr (Or.inr ⟨⟨of_absent rfl, of_absent rfl, Or.inr ⟨"array", ?_, ?_⟩,
      ?_, ?_, fun _ _ => (absurd · List.not_mem_nil)⟩, of_absent rfl, of_absent rfl,
      of_absent rfl, ?_, List.forall_mem_nil _, of_absent rfl⟩)
    · exact List.mem_singleton.mpr rfl
    · exact ⟨⟨_, rfl⟩, fun hname => absurd hname (by decide)⟩
    · exact fun _ htypes => absurd htypes (List.cons_ne_nil _ _)
    · rintro ⟨fields, hfields⟩
      cases hfields
    · rintro items hitems elements helements x hx
      cases hitems
      cases helements
      obtain rfl := List.mem_singleton.mp hx
      refine admits_object.mpr (Or.inr ⟨⟨of_absent rfl, ?_, Or.inl rfl, ?_, ?_,
        fun _ _ => (absurd · List.not_mem_nil)⟩, of_absent rfl, of_absent rfl, of_absent rfl,
        of_absent rfl, List.forall_mem_nil _, of_absent rfl⟩)
      · intro values hvalues
        cases hvalues
        exact ⟨.string "b", by simp, Json.Same.string "b"⟩
      · rintro - - ⟨-, hlisted, -⟩
        cases hlisted
      · rintro ⟨fields, hfields⟩
        cases hfields
  exact ⟨hplain, hvalid, compile_sound _ [] (Scope.top .component "Tags") Registry.empty
    hplain hvalid⟩

/-- By the standard reading the compiler is not sound: a node that only requires a
property admits a number, which its object type does not have. -/
theorem not_compile_sound_standard :
    ¬ ∀ (lookups : Section → String → Json → Prop) (schemas : Table (RefOr Json))
      (scope : Scope) (registry : Registry) (schema v : Json),
      Plain schema → Admits .standard schema v →
        ((compile schemas (.inline schema) scope).run registry).value.Denotes lookups
          ((compile schemas (.inline schema) scope).run registry).enums v := by
  intro hsound
  have hplain : Plain (.object [("required", .array [.string "a"])]) := by
    refine Plain.node ⟨rfl, rfl, rfl, fun _ => rfl, ?_, of_absent rfl⟩
      (no_branches rfl rfl rfl) (of_absent rfl) (List.forall_mem_nil _) (of_absent rfl)
    rintro n ⟨⟩
  have hvalid : Admits .standard (.object [("required", .array [.string "a"])])
      (.number (.integer 5)) := by
    refine admits_object.mpr (Or.inr ⟨⟨of_absent rfl, of_absent rfl, Or.inl rfl, ?_, ?_,
      fun _ _ => (absurd · List.not_mem_nil)⟩, of_absent rfl, of_absent rfl, of_absent rfl,
      of_absent rfl, List.forall_mem_nil _, of_absent rfl⟩)
    · rintro ⟨⟩
    · rintro ⟨fields, hfields⟩
      cases hfields
  have htype := hsound (fun _ _ _ => True) [] (Scope.top .component "") Registry.empty _ _
    hplain hvalid
  obtain ⟨⟨fields, hfields⟩, -⟩ := htype
  cases hfields

end OpenApiTypings.Schema
