import OpenApiTypings.Proofs.Enum.Naming
import OpenApiTypings.Proofs.Number.Literal
import OpenApiTypings.Proofs.Text.Words

/-!
# Spelling of enums

Names of enums and of their members consist of characters of identifiers, and the value
of a member is a literal.  Hints and values may be any texts.
-/

namespace OpenApiTypings

open Text (isIdentPart)

/-- Every character may stand in an identifier. -/
def Spelled (text : List Char) : Prop := ∀ c ∈ text, isIdentPart c = true

instance (text : List Char) : Decidable (Spelled text) :=
  List.decidableBAll (isIdentPart · = true) text

theorem Spelled.append {xs ys : List Char} (hx : Spelled xs) (hy : Spelled ys) :
    Spelled (xs ++ ys) := by
  intro c hc
  rcases List.mem_append.mp hc with h | h
  · exact hx c h
  · exact hy c h

theorem Spelled.isBare {text : List Char} (h : Spelled text) :
    ∀ c ∈ text, Text.isBare c = true :=
  fun c hc => Text.isBare_of_isIdentPart (h c hc)

theorem spelled_toString (n : Nat) : Spelled (toString n).toList := by
  intro c hc
  simp [isIdentPart, Char.isAlphanum, Registry.isDigit_of_mem_toString hc]

theorem Text.spelled_pascalCase (hint : String) : Spelled (pascalCase hint).toList := by
  intro c hc
  exact isIdentPart_of_isAlphanum (isAlphanum_of_mem_pascalCase hc)

/-! ### Names of declarations -/

theorem EnumMember.spelled_spellNumber {minus : String} (hminus : Spelled minus.toList)
    (n : Number) : Spelled (spellNumber minus n.literal).toList := by
  rw [spellNumber, String.toList_ofList]
  intro c hc
  obtain ⟨d, hd, hmem⟩ := List.mem_flatMap.mp hc
  split at hmem
  · exact hminus c hmem
  split at hmem
  · obtain rfl := List.mem_singleton.mp hmem
    decide
  · obtain rfl := List.mem_singleton.mp hmem
    rcases Number.isDecimalChar_of_mem_literal hd with hdigit | hsign | hpoint
    · simp [isIdentPart, Char.isAlphanum, hdigit]
    · exact absurd hsign (by assumption)
    · exact absurd hpoint (by assumption)

namespace EnumDecl

theorem spelled_valueSuffix (values : List Json) : Spelled (valueSuffix values).toList := by
  unfold valueSuffix
  split
  · exact Text.spelled_pascalCase _
  · rw [String.toList_append]
    have hhead : Spelled "Value".toList := by
      decide
    apply hhead.append
    apply EnumMember.spelled_spellNumber
    decide
  · intro c hc
    exact absurd hc (by simp)

theorem spelled_baseName (hint : String) (values : List Json) :
    Spelled (baseName hint values).toList := by
  have hconst : Spelled "Enum".toList ∧ Spelled "_".toList := by
    decide
  have hnamed : Spelled ((if (Text.pascalCase hint).isEmpty then "Enum"
      else Text.pascalCase hint) ++ valueSuffix values).toList := by
    rw [String.toList_append]
    apply Spelled.append _ (spelled_valueSuffix values)
    split
    · exact hconst.1
    · exact Text.spelled_pascalCase hint
  have hended : ∀ named : String, Spelled named.toList →
      Spelled (if endsInEnum named then named else named ++ "Enum").toList := by
    intro named h
    split
    · exact h
    · rw [String.toList_append]
      exact h.append hconst.1
  unfold baseName
  simp only
  split
  · split
    · rw [String.toList_append]
      exact hconst.2.append (hended _ hnamed)
    · exact hended _ hnamed
  · exact hended _ hnamed

theorem spelled_candidate {base : String} (hbase : Spelled base.toList) (n : Nat) :
    Spelled (Registry.candidate base n).toList := by
  cases n with
  | zero => exact hbase
  | succ n =>
    rw [Registry.candidate, String.toList_append]
    exact hbase.append (spelled_toString _)

end EnumDecl

/-! ### Members -/

namespace EnumMember

/-- The identifier is spelled, and the value is atomic. -/
def Sound (member : EnumMember) : Prop :=
  Spelled member.name.toList ∧ Text.Atomic member.value.toList

theorem spelled_identifierStem (stem : String) : Spelled (identifierStem stem).toList := by
  unfold identifierStem
  split
  · rename_i h
    exact fun c hc => Text.isIdentPart_of_isIdentifier h hc
  · decide

theorem spelled_numberedStem {stem : String} (h : Spelled stem.toList) (occurrence : Nat) :
    Spelled (numberedStem stem occurrence).toList := by
  unfold numberedStem
  split
  · exact h
  · have hmark : Spelled "_".toList := by
      decide
    rw [String.toList_append, String.toList_append]
    exact (h.append hmark).append (spelled_toString occurrence)

theorem atomic_of_seedOf? {v : Json} {seed : Kind × EnumMember} (h : seedOf? v = some seed) :
    Text.Atomic seed.2.value.toList := by
  cases v with
  | string s =>
    cases h
    exact Text.atomic_quote s
  | number n =>
    cases h
    exact Text.atomic_of_bare fun c hc => (Number.isDecimalChar_of_mem_literal hc).isBare
  | null => cases h
  | bool b => cases h
  | array items => cases h
  | object fields => cases h

/-- A member made of a seed, at an occurrence of its stem. -/
def numbered (seed : EnumMember) (occurrence : Nat) : EnumMember :=
  ⟨numberedStem (identifierStem seed.name) occurrence, seed.value⟩

theorem exists_seed_of_mem_nameAll {before : List String} {seeds : List EnumMember}
    {member : EnumMember} (hmember : member ∈ nameAll before seeds) :
    ∃ seed ∈ seeds, ∃ occurrence, member = seed.numbered occurrence := by
  induction seeds generalizing before with
  | nil => exact absurd hmember List.not_mem_nil
  | cons seed rest ih =>
    rw [nameAll] at hmember
    rcases List.mem_cons.mp hmember with rfl | hrest
    · exact ⟨seed, List.mem_cons_self .., _, rfl⟩
    · obtain ⟨other, hother, hnumbered⟩ := ih hrest
      exact ⟨other, List.mem_cons_of_mem _ hother, hnumbered⟩

/-- All members are made of values, and these are of one kind. -/
theorem exists_kind_of_ofValues? {values : List Json} {members : List EnumMember}
    (h : ofValues? values = some members) : ∃ kind, ∀ member ∈ members,
      ∃ v seed occurrence, seedOf? v = some (kind, seed) ∧ member = seed.numbered occurrence := by
  obtain ⟨kind, seeds, hseeds, -, rfl⟩ := ofValues?_eq_some_iff.mp h
  refine ⟨kind, fun member hmember => ?_⟩
  obtain ⟨seed, hseed, occurrence, hnumbered⟩ := exists_seed_of_mem_nameAll hmember
  obtain ⟨v, -, hv⟩ := exists_left_of_mem hseeds hseed
  exact ⟨v, seed, occurrence, hv, hnumbered⟩

/-- The members made of listed values are sound. -/
theorem sound_of_mem_ofValues? {values : List Json} {members : List EnumMember}
    (h : ofValues? values = some members) {member : EnumMember} (hmember : member ∈ members) :
    member.Sound := by
  obtain ⟨_, hmembers⟩ := exists_kind_of_ofValues? h
  obtain ⟨v, seed, occurrence, hseed, rfl⟩ := hmembers member hmember
  exact ⟨spelled_numberedStem (spelled_identifierStem seed.name) occurrence,
    atomic_of_seedOf? hseed⟩

end EnumMember

/-! ### Registries -/

/-- All names of the registry are spelled, and all members are sound. -/
def Registry.Sound (registry : Registry) : Prop :=
  ∀ entry ∈ registry.entries, Spelled entry.1.toList ∧ ∀ member ∈ entry.2, member.Sound

theorem Registry.sound_empty : Registry.empty.Sound :=
  fun _ hentry => absurd hentry List.not_mem_nil

theorem Registry.Reaches.sound {registry later : Registry} (h : registry.Reaches later)
    (hregistry : registry.Sound) : later.Sound := by
  intro entry hentry
  rcases h.mem_entries hentry with hold | ⟨call, hmembers, n, hname⟩
  · exact hregistry entry hold
  · rw [hname]
    exact ⟨EnumDecl.spelled_candidate (EnumDecl.spelled_baseName call.hint call.values) n,
      fun member hmember => EnumMember.sound_of_mem_ofValues? hmembers hmember⟩

theorem EnumMember.Sound.balanced_line {member : EnumMember} (h : member.Sound) :
    Text.Balanced ("  " ++ member.name ++ " = " ++ member.value ++ ",\n").toList := by
  have hname := (Text.atomic_of_bare h.1.isBare).balanced
  simp only [String.toList_append]
  apply Text.Balanced.append _ (by decide)
  apply Text.Balanced.append _ h.2.balanced
  apply Text.Balanced.append _ (by decide)
  exact (by decide : Text.Balanced "  ".toList).append hname

/-- A sound enum is declared in balanced text. -/
theorem EnumDecl.balanced_render {decl : EnumDecl} (hname : Spelled decl.name.toList)
    (hmembers : ∀ member ∈ decl.members, member.Sound) :
    Text.Balanced decl.render.toList := by
  have hbody : Text.Balanced (String.join (decl.members.map fun m =>
      "  " ++ m.name ++ " = " ++ m.value ++ ",\n")).toList := by
    apply Text.balanced_join
    intro piece hpiece
    obtain ⟨member, hmember, rfl⟩ := List.mem_map.mp hpiece
    exact (hmembers member hmember).balanced_line
  have hopening : ("export const enum " ++ decl.name ++ " \x7b\n").toList =
      ("export const enum ".toList ++ decl.name.toList ++ [' ']) ++ ['\x7b', '\n'] := by
    simp only [String.toList_append, List.append_assoc]
    rfl
  refine Text.balanced_block _ [] ['\n', '\n'] hopening (by decide) ?_ hbody (by decide) (by decide)
  apply Text.Balanced.append _ (by decide)
  exact (by decide : Text.Balanced "export const enum ".toList).append
    (Text.atomic_of_bare hname.isBare).balanced

end OpenApiTypings
