import OpenApiTypings.Proofs.Enum.Registry
import OpenApiTypings.Proofs.Lists
import Mathlib.Data.List.Induction

/-!
# How enums are named

A run is a list of calls on the registry that holds nothing.  For every base name the
run gives rise to a list of distinct member lists, in the order in which they first
occur.  The invariant of a run is that the registry numbers exactly these: under the
first, second, third candidate of a base name stands the first, second, third list.

A base name ends in `Enum`, so it does not end in a digit.  Taking the digits off the
end of a candidate therefore gives the base name back, and candidates of different base
names never meet.
-/

namespace OpenApiTypings

/-! ### Base names -/

namespace EnumDecl

/-- The text ends in `Enum`. -/
def EndsInEnum (name : String) : Prop :=
  ∃ stem, name.toList = stem ++ "Enum".toList

theorem endsInEnum_of_endsInEnum {name : String} (h : endsInEnum name = true) :
    EndsInEnum name := by
  obtain ⟨stem, hstem⟩ := List.isSuffixOf_iff_suffix.mp h
  exact ⟨stem, hstem.symm⟩

theorem EndsInEnum.append {text : String} (front : String) (h : EndsInEnum text) :
    EndsInEnum (front ++ text) := by
  obtain ⟨stem, hstem⟩ := h
  exact ⟨front.toList ++ stem, by rw [String.toList_append, hstem, List.append_assoc]⟩

theorem baseName_endsInEnum (hint : String) (values : List Json) :
    EndsInEnum (baseName hint values) := by
  have hended : ∀ named, EndsInEnum (if endsInEnum named then named else named ++ "Enum") := by
    intro named
    split
    · rename_i h
      exact endsInEnum_of_endsInEnum h
    · exact ⟨named.toList, String.toList_append⟩
  unfold baseName
  simp only
  split
  · split
    · exact (hended _).append "_"
    · exact hended _
  · exact hended _

end EnumDecl

open EnumDecl (EndsInEnum)

namespace Registry

theorem isDigit_of_mem_toString {n : Nat} {c : Char} (hc : c ∈ (toString n).toList) :
    c.isDigit = true := by
  rw [Nat.toString_eq_repr, Nat.toList_repr] at hc
  exact Nat.isDigit_of_mem_toDigits (by decide) (by decide) hc

/-- A number is taken off again from behind a text that ends in no digit. -/
theorem dropDigits_append_toString {front : String}
    (hfront : front.toList.reverse.dropWhile Char.isDigit = front.toList.reverse) (n : Nat) :
    (front ++ toString n).toList.reverse.dropWhile Char.isDigit = front.toList.reverse := by
  rw [String.toList_append, List.reverse_append, List.dropWhile_append_of_pos, hfront]
  intro c hc
  exact isDigit_of_mem_toString (List.mem_reverse.mp hc)

/-- The base name is what is left of a candidate without the digits at its end. -/
theorem dropDigits_candidate {base : String} (hbase : EndsInEnum base) (n : Nat) :
    (candidate base n).toList.reverse.dropWhile Char.isDigit = base.toList.reverse := by
  obtain ⟨stem, hstem⟩ := hbase
  have hplain : base.toList.reverse.dropWhile Char.isDigit = base.toList.reverse := by
    rw [hstem, List.reverse_append]
    exact List.dropWhile_cons_of_neg (by decide)
  cases n with
  | zero => exact hplain
  | succ n => exact dropDigits_append_toString hplain (n + 2)

/-- Candidates of different base names never meet. -/
theorem base_eq_of_candidate_eq {base base' : String} (h : EndsInEnum base)
    (h' : EndsInEnum base') {m n : Nat} (heq : candidate base m = candidate base' n) :
    base = base' := by
  have hreversed : base.toList.reverse = base'.toList.reverse := by
    rw [← dropDigits_candidate h m, heq, dropDigits_candidate h' n]
  exact String.toList_inj.mp (List.reverse_inj.mp hreversed)

/-- A candidate ends in the last letter of its base name, apart from the digits of its number. -/
theorem candidate_ne {base name : String} (hbase : EndsInEnum base) (n : Nat)
    (hname : (name.toList.reverse.dropWhile Char.isDigit).head? ≠ some 'm') :
    candidate base n ≠ name := by
  rintro rfl
  apply hname
  rw [dropDigits_candidate hbase n]
  obtain ⟨stem, hstem⟩ := hbase
  rw [hstem, List.reverse_append]
  rfl

theorem candidate_notMem {base : String} (hbase : EndsInEnum base) (n : Nat) {names : List String}
    (hnames : ∀ name ∈ names, (name.toList.reverse.dropWhile Char.isDigit).head? ≠ some 'm') :
    candidate base n ∉ names :=
  fun hmem => candidate_ne hbase n (hnames _ hmem) rfl

/-- No candidate of a base name is reserved. -/
theorem candidate_not_mem_reserved {base : String} (hbase : EndsInEnum base) (n : Nat) :
    candidate base n ∉ reservedNames :=
  candidate_notMem hbase n (by decide)

end Registry

/-! ### Member lists of a run -/

/-- The list with the value at its end, unless the value is in it. -/
def appendNew [DecidableEq α] (x : α) (xs : List α) : List α :=
  if x ∈ xs then xs else xs ++ [x]

section AppendNew

variable {α : Type} [DecidableEq α]

theorem mem_appendNew (x : α) (xs : List α) : x ∈ appendNew x xs := by
  unfold appendNew
  split
  · assumption
  · exact List.mem_append_right _ (List.mem_singleton.mpr rfl)

theorem prefix_appendNew (x : α) (xs : List α) : xs <+: appendNew x xs := by
  unfold appendNew
  split
  · exact List.prefix_refl _
  · exact List.prefix_append ..

theorem nodup_appendNew {x : α} {xs : List α} (hxs : xs.Nodup) : (appendNew x xs).Nodup := by
  unfold appendNew
  split
  · exact hxs
  · rename_i hnew
    rw [List.nodup_append]
    refine ⟨hxs, by simp, ?_⟩
    intro a ha b hb
    rw [List.mem_singleton.mp hb]
    rintro rfl
    exact hnew ha

/-- Appending a value changes no place but the value's own. -/
theorem getElem?_appendNew_of_ne {x : α} {xs : List α} {place n : Nat}
    (hplace : (appendNew x xs)[place]? = some x) (hne : n ≠ place) :
    (appendNew x xs)[n]? = xs[n]? := by
  unfold appendNew at hplace ⊢
  split at hplace
  · rw [if_pos (by assumption)]
  · rename_i hnew
    rw [if_neg hnew]
    have hend : place = xs.length := by
      rcases Nat.lt_trichotomy place xs.length with hlt | heq | hgt
      · rw [List.getElem?_append_left hlt] at hplace
        exact absurd (List.mem_of_getElem? hplace) hnew
      · exact heq
      · rw [List.getElem?_eq_none (by simp; omega)] at hplace
        exact absurd hplace (by simp)
    rcases Nat.lt_or_gt_of_ne hne with hlt | hgt
    · exact List.getElem?_append_left (by omega)
    · rw [List.getElem?_eq_none (by simp; omega), List.getElem?_eq_none (by omega)]

end AppendNew

/-- The distinct member lists that the calls of a run ask for under a base name, in the
order in which they first occur. -/
def memberListsUnder (base : String) (calls : List EnumCall) : List (List EnumMember) :=
  calls.foldl (fun seen call =>
    match call.members? with
    | some members => if call.base = base then appendNew members seen else seen
    | none => seen) []

theorem memberListsUnder_of_none (base : String) (calls : List EnumCall) {call : EnumCall}
    (hnone : call.members? = none) :
    memberListsUnder base (calls ++ [call]) = memberListsUnder base calls := by
  simp only [memberListsUnder, List.foldl_append, List.foldl_cons, List.foldl_nil, hnone]

theorem memberListsUnder_of_some (base : String) (calls : List EnumCall) {call : EnumCall}
    {members : List EnumMember} (hsome : call.members? = some members) :
    memberListsUnder base (calls ++ [call]) =
      if call.base = base then appendNew members (memberListsUnder base calls)
      else memberListsUnder base calls := by
  simp only [memberListsUnder, List.foldl_append, List.foldl_cons, List.foldl_nil, hsome]

theorem memberListsUnder_concat_prefix (base : String) (calls : List EnumCall)
    (call : EnumCall) :
    memberListsUnder base calls <+: memberListsUnder base (calls ++ [call]) := by
  cases hcall : call.members? with
  | none => simp only [memberListsUnder_of_none base calls hcall, List.prefix_refl]
  | some members =>
    rw [memberListsUnder_of_some base calls hcall]
    split
    · exact prefix_appendNew ..
    · exact List.prefix_refl _

theorem memberListsUnder_prefix (base : String) (calls more : List EnumCall) :
    memberListsUnder base calls <+: memberListsUnder base (calls ++ more) := by
  induction more generalizing calls with
  | nil => simp only [List.append_nil, List.prefix_refl]
  | cons call rest ih =>
    have hstep := memberListsUnder_concat_prefix base calls call
    have hrest := ih (calls ++ [call])
    rw [List.append_assoc] at hrest
    exact hstep.trans hrest

theorem memberListsUnder_nodup_concat (base : String) (calls : List EnumCall)
    (call : EnumCall) (h : (memberListsUnder base calls).Nodup) :
    (memberListsUnder base (calls ++ [call])).Nodup := by
  cases hcall : call.members? with
  | none => rw [memberListsUnder_of_none base calls hcall]; exact h
  | some members =>
    rw [memberListsUnder_of_some base calls hcall]
    split
    · exact nodup_appendNew h
    · exact h

theorem memberListsUnder_nodup (base : String) (calls : List EnumCall) :
    (memberListsUnder base calls).Nodup := by
  induction calls using List.reverseRecOn with
  | nil => exact List.nodup_nil
  | append_singleton calls call ih => exact memberListsUnder_nodup_concat base calls call ih

/-! ### The invariant -/

/-- Under the candidates of every base name stand its member lists, in order. -/
def Numbered (registry : Registry) (calls : List EnumCall) : Prop :=
  ∀ base, EndsInEnum base → ∀ n,
    registry.members? (Registry.candidate base n) = (memberListsUnder base calls)[n]?

theorem numbered_empty : Numbered Registry.empty [] := by
  intro base _ n
  rfl

namespace EnumCall

theorem base_endsInEnum (call : EnumCall) : EndsInEnum call.base :=
  EnumDecl.baseName_endsInEnum call.hint call.values

/-- A call is given the candidate at the place of its member list. -/
theorem choose_eq_candidate {registry : Registry} {calls : List EnumCall}
    (hnumbered : Numbered registry calls) {call : EnumCall} {members : List EnumMember}
    (hsome : call.members? = some members) {n : Nat}
    (hn : (memberListsUnder call.base (calls ++ [call]))[n]? = some members) :
    registry.choose call.base members = Registry.candidate call.base n := by
  have hbase := call.base_endsInEnum
  have hprefix := memberListsUnder_concat_prefix call.base calls call
  have hnodup := memberListsUnder_nodup call.base (calls ++ [call])
  have hbound : n < (memberListsUnder call.base (calls ++ [call])).length :=
    (List.getElem?_eq_some_iff.mp hn).1
  apply Registry.choose_eq_of_first
  · rw [Registry.serves_iff, hnumbered _ hbase]
    by_cases hold : n < (memberListsUnder call.base calls).length
    · left
      rw [List.getElem?_eq_getElem hold]
      exact (List.prefix_iff_getElem?.mp hprefix n hold).symm.trans hn
    · right
      exact ⟨List.getElem?_eq_none (Nat.le_of_not_lt hold),
        Registry.candidate_not_mem_reserved hbase n⟩
  · -- earlier candidates stand for earlier member lists, and those are different
    intro k hk
    have hlength : (memberListsUnder call.base (calls ++ [call])).length ≤
        (memberListsUnder call.base calls).length + 1 := by
      rw [memberListsUnder_of_some call.base calls hsome, if_pos rfl, appendNew]
      split <;> simp
    have hold : k < (memberListsUnder call.base calls).length := by omega
    cases hserves : registry.serves members (Registry.candidate call.base k) with
    | false => rfl
    | true =>
      have hk' := List.prefix_iff_getElem?.mp hprefix k hold
      rw [Registry.serves_iff, hnumbered _ hbase, List.getElem?_eq_getElem hold] at hserves
      rcases hserves with hsame | ⟨hnone, -⟩
      · have heq : k = n :=
          (List.getElem?_inj (Nat.lt_trans hk hbound) hnodup).mp
            (hk'.trans (hsame.trans hn.symm))
        omega
      · exact absurd hnone (by simp)

theorem exists_place {call : EnumCall} {members : List EnumMember}
    (hsome : call.members? = some members) (calls : List EnumCall) :
    ∃ n : Nat, (memberListsUnder call.base (calls ++ [call]))[n]? = some members := by
  rw [memberListsUnder_of_some call.base calls hsome, if_pos rfl]
  obtain ⟨n, hn, heq⟩ := List.mem_iff_getElem.mp
    (mem_appendNew members (memberListsUnder call.base calls))
  exact ⟨n, List.getElem?_eq_some_iff.mpr ⟨hn, heq⟩⟩

end EnumCall

/-- A call keeps the registry numbered. -/
theorem Numbered.call {registry : Registry} {calls : List EnumCall}
    (hnumbered : Numbered registry calls) (call : EnumCall) :
    Numbered (call.outcome registry).enums (calls ++ [call]) := by
  intro base hbase n
  cases hcall : call.members? with
  | none =>
    rw [(EnumCall.outcome_of_none hcall registry).2,
      memberListsUnder_of_none base calls hcall, hnumbered base hbase]
  | some members =>
    obtain ⟨place, hplace⟩ := EnumCall.exists_place hcall calls
    have hchoose := EnumCall.choose_eq_candidate hnumbered hcall hplace
    by_cases hname : Registry.candidate base n = registry.choose call.base members
    · have hplaced := hname.trans hchoose
      have hsame := Registry.base_eq_of_candidate_eq hbase call.base_endsInEnum hplaced
      rw [hsame] at hplaced
      have hn := Registry.candidate_injective call.base hplaced
      rw [hname, EnumCall.members?_outcome_self hcall, hsame, hn, hplace]
    · rw [EnumCall.members?_outcome_of_ne hcall registry hname, hnumbered base hbase,
        memberListsUnder_of_some base calls hcall]
      split
      · rename_i hsame
        rw [memberListsUnder_of_some _ calls hcall, if_pos rfl, hsame] at hplace
        refine (getElem?_appendNew_of_ne hplace ?_).symm
        intro hn
        rw [hchoose, hsame, hn] at hname
        exact hname rfl
      · rfl

/-- The registry is numbered after every run. -/
theorem numbered_after (calls : List EnumCall) :
    Numbered (Registry.empty.after calls) calls := by
  -- from the end of the run, where the last call meets the registry of those before it
  induction calls using List.reverseRecOn with
  | nil => exact numbered_empty
  | append_singleton calls call ih =>
    rw [Registry.after_concat]
    exact ih.call call

/-! ### Values of members -/

namespace EnumMember

theorem nameAll_values (before : List String) (seeds : List EnumMember) :
    (nameAll before seeds).map EnumMember.value = seeds.map EnumMember.value := by
  induction seeds generalizing before with
  | nil => rfl
  | cons seed rest ih =>
    simp only [nameAll, List.map_cons]
    rw [ih]

theorem seedOf?_value {v : Json} {seed : Kind × EnumMember} (h : seedOf? v = some seed) :
    (Literal.ofJson? v).map Literal.render = some seed.2.value := by
  cases v with
  | string s => cases h; rfl
  | number n => cases h; rfl
  | null => cases h
  | bool b => cases h
  | array items => cases h
  | object fields => cases h

/-- Listed values make members just when they give seeds of one kind, and at least one. -/
theorem ofValues?_eq_some_iff {values : List Json} {members : List EnumMember} :
    ofValues? values = some members ↔ ∃ kind seeds,
      List.Forall₂ (fun v seed => seedOf? v = some (kind, seed)) values seeds ∧ seeds ≠ [] ∧
        members = nameAll [] seeds := by
  constructor
  · intro h
    unfold ofValues? at h
    split at h
    · cases h
    · cases h
    · rename_i kind first rest hseeds
      split at h
      · rename_i hkinds
        cases h
        have hrest : (rest.map Prod.snd).map (fun seed => (kind, seed)) = rest := by
          rw [List.map_map]
          refine (List.map_congr_left ?_).trans (List.map_id rest)
          rintro ⟨other, seed⟩ hpair
          obtain rfl : other = kind := of_decide_eq_true (List.all_eq_true.mp hkinds _ hpair)
          rfl
        have hforall := forall₂_of_mapM_eq_some hseeds
        rw [← hrest, ← List.map_cons (f := fun seed => (kind, seed)),
          List.forall₂_map_right_iff] at hforall
        exact ⟨kind, first :: rest.map Prod.snd, hforall, List.cons_ne_nil _ _, rfl⟩
      · cases h
  · rintro ⟨kind, seeds, hseeds, hne, rfl⟩
    obtain ⟨first, rest, rfl⟩ := List.exists_cons_of_ne_nil hne
    have hpairs := mapM_eq_some_of_forall₂
      ((List.forall₂_map_right_iff (f := fun seed => (kind, seed))).mpr hseeds)
    simp [ofValues?, hpairs, Function.comp_def]

/-- The members hold the literal texts of the values, in order and without loss. -/
theorem ofValues?_values {values : List Json} {members : List EnumMember}
    (h : ofValues? values = some members) :
    values.map (fun v => (Literal.ofJson? v).map Literal.render) =
      members.map fun member => some member.value := by
  obtain ⟨kind, seeds, hseeds, -, rfl⟩ := ofValues?_eq_some_iff.mp h
  have hvalues := congrArg (List.map some) (nameAll_values [] seeds)
  rw [List.map_map, List.map_map] at hvalues
  exact (map_eq_of_forall₂ hseeds fun v seed hseed => seedOf?_value hseed).trans hvalues.symm

end EnumMember

/-! ### Runs -/

/-- The declared name in the type that stands for an enum. -/
def TypeExpr.enumName? : TypeExpr → Option String
  | .enumRef name => some name
  | .union [.enumRef name, .literal .null] => some name
  | _ => none

/-- The registry that a call of a run meets. -/
def registryBefore (calls : List EnumCall) (i : Nat) : Registry :=
  Registry.empty.after (calls.take i)

/-- The declared name that a call of a run gives; none when it gives no type. -/
def nameAt (calls : List EnumCall) (i : Nat) : Option String :=
  calls[i]?.bind fun call =>
    (call.outcome (registryBefore calls i)).value.bind TypeExpr.enumName?

section Runs

variable {calls : List EnumCall} {i : Nat} {call : EnumCall}

theorem take_succ_of_getElem? (hcall : calls[i]? = some call) :
    calls.take (i + 1) = calls.take i ++ [call] := by
  rw [List.take_add_one, hcall]
  rfl

theorem nameAt_eq_choose {members : List EnumMember} (hcall : calls[i]? = some call)
    (hsome : call.members? = some members) :
    nameAt calls i = some ((registryBefore calls i).choose call.base members) := by
  rw [nameAt, hcall, Option.bind_some, (EnumCall.outcome_of_some hsome _).1,
    Option.bind_some, EnumCall.usage]
  split <;> rfl

theorem exists_members_of_nameAt {name : String} (hcall : calls[i]? = some call)
    (hname : nameAt calls i = some name) : ∃ members, call.members? = some members := by
  cases hmembers : call.members? with
  | some members => exact ⟨members, rfl⟩
  | none =>
    rw [nameAt, hcall, Option.bind_some, (EnumCall.outcome_of_none hmembers _).1] at hname
    exact absurd hname (by simp)

/-- A call gives the candidate at the place of its members among the lists of the
whole run. -/
theorem exists_nameAt_eq_candidate {members : List EnumMember}
    (hcall : calls[i]? = some call) (hsome : call.members? = some members) :
    ∃ n : Nat, (memberListsUnder call.base calls)[n]? = some members ∧
      nameAt calls i = some (Registry.candidate call.base n) := by
  obtain ⟨n, hn⟩ := EnumCall.exists_place hsome (calls.take i)
  refine ⟨n, ?_, ?_⟩
  · have hprefix := memberListsUnder_prefix call.base (calls.take (i + 1))
      (calls.drop (i + 1))
    rw [List.take_append_drop, take_succ_of_getElem? hcall] at hprefix
    obtain ⟨hlt, heq⟩ := List.getElem?_eq_some_iff.mp hn
    rw [List.prefix_iff_getElem?.mp hprefix n hlt, heq]
  · rw [nameAt_eq_choose hcall hsome]
    exact congrArg some
      (EnumCall.choose_eq_candidate (numbered_after (calls.take i)) hsome hn)

/-- After a call its name stands for its members, for the rest of the run. -/
theorem members?_of_nameAt {members : List EnumMember} (hcall : calls[i]? = some call)
    (hsome : call.members? = some members) {name : String}
    (hname : nameAt calls i = some name) {j : Nat} (hlt : i < j) :
    (registryBefore calls j).members? name = some members := by
  have hreaches : (registryBefore calls (i + 1)).Reaches (registryBefore calls j) := by
    refine ⟨(calls.take j).drop (i + 1), ?_⟩
    have hsplit := List.take_append_drop (i + 1) (calls.take j)
    rw [List.take_take, Nat.min_eq_left hlt] at hsplit
    rw [registryBefore, registryBefore, ← Registry.after_append, hsplit]
  apply hreaches.members?
  rw [nameAt_eq_choose hcall hsome] at hname
  rw [registryBefore, take_succ_of_getElem? hcall, Registry.after_concat,
    ← Option.some.inj hname]
  exact EnumCall.members?_outcome_self hsome _

end Runs

/-- What a run of calls makes of names. -/
structure ExactNaming (calls : List EnumCall) : Prop where
  /-- Two calls give one name iff they ask for one base name and the same members. -/
  same_name_iff : ∀ i j c d m n, calls[i]? = some c → calls[j]? = some d →
    nameAt calls i = some m → nameAt calls j = some n →
    (m = n ↔ c.base = d.base ∧ c.members? = d.members?)
  /-- A call that asks for the list at a place gives the candidate with that number. -/
  numbered : ∀ i c members, calls[i]? = some c → c.members? = some members →
    ∃ n : Nat, (memberListsUnder c.base calls)[n]? = some members ∧
      nameAt calls i = some (Registry.candidate c.base n)
  /-- The candidates of a base name that are declared are the first ones, one for each
  of its lists. -/
  without_gap : ∀ c ∈ calls, ∀ n,
    (Registry.empty.after calls).members? (Registry.candidate c.base n) =
      (memberListsUnder c.base calls)[n]?
  /-- A name keeps its members for the rest of the run, and they hold the literal texts
  of the values of the call, in order. -/
  permanent : ∀ i c name, calls[i]? = some c → nameAt calls i = some name →
    ∀ j, i < j → ∃ members, (registryBefore calls j).members? name = some members ∧
      members.map (fun member => some member.value) =
        c.values.map fun v => (Literal.ofJson? v).map Literal.render
  /-- A call without a type leaves the registry as it is. -/
  unchanged_of_none : ∀ i c, calls[i]? = some c →
    (c.outcome (registryBefore calls i)).value = none →
    registryBefore calls (i + 1) = registryBefore calls i
  /-- Names of different base names never coincide. -/
  bases_apart : ∀ c ∈ calls, ∀ d ∈ calls, c.base ≠ d.base → ∀ m n,
    Registry.candidate c.base m ≠ Registry.candidate d.base n

/-- Every run of calls that starts with no enum declared names its enums exactly. -/
theorem exactNaming (calls : List EnumCall) : ExactNaming calls where
  same_name_iff := by
    intro i j c d m n hc hd hm hn
    obtain ⟨members, hmembers⟩ := exists_members_of_nameAt hc hm
    obtain ⟨others, hothers⟩ := exists_members_of_nameAt hd hn
    obtain ⟨k, hk, hmk⟩ := exists_nameAt_eq_candidate hc hmembers
    obtain ⟨l, hl, hnl⟩ := exists_nameAt_eq_candidate hd hothers
    have hmk := Option.some.inj (hm.symm.trans hmk)
    have hnl := Option.some.inj (hn.symm.trans hnl)
    constructor
    · intro heq
      have hcandidates : Registry.candidate c.base k = Registry.candidate d.base l :=
        hmk.symm.trans (heq.trans hnl)
      have hbase := Registry.base_eq_of_candidate_eq c.base_endsInEnum d.base_endsInEnum
        hcandidates
      rw [hbase] at hcandidates hk
      have hplace := Registry.candidate_injective d.base hcandidates
      rw [hplace] at hk
      exact ⟨hbase, by rw [hmembers, hothers, ← hk, hl]⟩
    · rintro ⟨hbase, hsame⟩
      rw [hmembers, hothers] at hsame
      rw [hbase, hsame] at hk
      have hplace : k = l :=
        (List.getElem?_inj (List.getElem?_eq_some_iff.mp hk).1
          (memberListsUnder_nodup d.base calls)).mp (hk.trans hl.symm)
      rw [hmk, hnl, hbase, hplace]
  numbered := fun i c members hc hmembers => exists_nameAt_eq_candidate hc hmembers
  without_gap := fun c _ n => numbered_after calls c.base c.base_endsInEnum n
  permanent := by
    intro i c name hc hname j hlt
    obtain ⟨members, hmembers⟩ := exists_members_of_nameAt hc hname
    exact ⟨members, members?_of_nameAt hc hmembers hname hlt,
      (EnumMember.ofValues?_values hmembers).symm⟩
  unchanged_of_none := by
    intro i c hc hnone
    rw [registryBefore, take_succ_of_getElem? hc, Registry.after_concat]
    cases hmembers : c.members? with
    | none => exact (EnumCall.outcome_of_none hmembers _).2
    | some members =>
      rw [(EnumCall.outcome_of_some hmembers _).1] at hnone
      exact absurd hnone (by simp)
  bases_apart := by
    intro c _ d _ hne m n heq
    exact hne (Registry.base_eq_of_candidate_eq c.base_endsInEnum d.base_endsInEnum heq)

/-- Two lists of values under one base name, and then the first one again. -/
example :
    let switch : EnumCall := ⟨"state", [.string "on", .string "off"], false⟩
    let levels : EnumCall := ⟨"State", [.number (.integer 1), .number (.integer 2)], true⟩
    let calls := [switch, levels, switch]
    [0, 1, 2].map (nameAt calls) = [some "StateEnum", some "StateEnum2", some "StateEnum"] ∧
      (memberListsUnder "StateEnum" calls).map some = [switch.members?, levels.members?] := by
  decide +kernel

end OpenApiTypings
