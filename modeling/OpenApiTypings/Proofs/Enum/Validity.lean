import OpenApiTypings.Proofs.Enum.Spelling
import OpenApiTypings.Proofs.Text.StringValue

/-!
# Enums are valid declarations

Texts make an enum, and so do numbers.  Whatever the hint and the values are, the names of the enum
and of its members are identifiers, and its values are literals of one kind.  The words of a hint
have characters of identifiers alone, and a digit in front of them is put behind a mark.  A number
behind a name that is taken, or behind a stem that has occurred, keeps it an identifier.

A base name ends in `Enum`, so no enum is named as one of the other types of a file.
-/

namespace OpenApiTypings

/-! ### Identifiers -/

namespace Text

theorem isIdentifier_of_spelled {name : String} (hname : Spelled name.toList) {first : Char}
    {rest : List Char} (hlist : name.toList = first :: rest) (hfirst : first.isDigit = false) :
    isIdentifier name = true := by
  rw [hlist] at hname
  obtain ⟨hpart, hrest⟩ := List.forall_mem_cons.mp hname
  have hstart : isIdentStart first = true := by
    simpa [isIdentStart, isIdentPart, Char.isAlphanum, hfirst] using hpart
  simp only [isIdentifier, hlist, hstart, Bool.true_and, List.all_eq_true]
  exact hrest

theorem isIdentifier_append {name back : String} (hname : isIdentifier name = true)
    (hback : Spelled back.toList) : isIdentifier (name ++ back) = true := by
  unfold isIdentifier at hname ⊢
  rw [String.toList_append]
  cases hlist : name.toList with
  | nil =>
    rw [hlist] at hname
    cases hname
  | cons first rest =>
    simp only [hlist, Bool.and_eq_true] at hname
    simp only [List.cons_append, List.all_append, hname.1, hname.2, Bool.true_and,
      List.all_eq_true]
    exact hback

/-- The text is one string literal. -/
def IsStringLiteral (text : String) : Prop :=
  ∃ value, stringToken? text.toList = some (value, [])

theorem isStringLiteral_quote (s : String) : IsStringLiteral (quote s) := by
  have htoken := stringToken?_quote s []
  rw [List.append_nil] at htoken
  exact ⟨units s.toList, htoken⟩

end Text

namespace EnumDecl

/-! ### Valid enums -/

/-- The types of a file that are no enums: those it may declare, and the one of the language that
it uses. -/
def otherTypes : List String := ["Components", "Routes", "Servers", "Webhooks", "Record"]

/-- The enum is a declaration of the language and stands in the way of no other type. -/
structure Valid (decl : EnumDecl) : Prop where
  name_isIdentifier : Text.isIdentifier decl.name = true
  name_notMem : decl.name ∉ otherTypes
  members_ne_nil : decl.members ≠ []
  member_isIdentifier : ∀ member ∈ decl.members, Text.isIdentifier member.name = true
  /-- An enum holds texts or numbers, and not both. -/
  values : (∀ member ∈ decl.members, Text.IsStringLiteral member.value) ∨
    ∀ member ∈ decl.members, Text.IsDecimal member.value.toList

/-- A digit in front of a base name is put behind a mark. -/
theorem isDigit_head?_baseName {hint : String} {values : List Json} {c : Char}
    (hc : (baseName hint values).toList.head? = some c) : c.isDigit = false := by
  unfold baseName at hc
  simp only at hc
  split at hc
  · rename_i first rest hlist
    split at hc
    · rw [String.toList_append] at hc
      obtain rfl : '_' = c := Option.some.inj hc
      decide
    · rename_i hfirst
      rw [hlist] at hc
      obtain rfl := Option.some.inj hc
      exact Bool.eq_false_iff.mpr hfirst
  · rename_i hnil
    rw [hnil] at hc
    cases hc

theorem isIdentifier_baseName (hint : String) (values : List Json) :
    Text.isIdentifier (baseName hint values) = true := by
  obtain ⟨stem, hended⟩ := baseName_endsInEnum hint values
  obtain ⟨first, rest, hlist⟩ := List.exists_cons_of_ne_nil
    (show (baseName hint values).toList ≠ [] by simp [hended])
  exact Text.isIdentifier_of_spelled (spelled_baseName hint values) hlist
    (isDigit_head?_baseName (by rw [hlist]; rfl))

theorem isIdentifier_candidate {base : String} (hbase : Text.isIdentifier base = true) (n : Nat) :
    Text.isIdentifier (Registry.candidate base n) = true := by
  cases n with
  | zero => exact hbase
  | succ n => exact Text.isIdentifier_append hbase (spelled_toString (n + 2))

end EnumDecl

namespace EnumMember

theorem isIdentifier_identifierStem (stem : String) :
    Text.isIdentifier (identifierStem stem) = true := by
  unfold identifierStem
  split
  · assumption
  · decide

theorem isIdentifier_numberedStem {stem : String} (h : Text.isIdentifier stem = true)
    (occurrence : Nat) : Text.isIdentifier (numberedStem stem occurrence) = true := by
  unfold numberedStem
  split
  · exact h
  · exact Text.isIdentifier_append (Text.isIdentifier_append h (by decide))
      (spelled_toString occurrence)

/-- The values of a kind. -/
def Kind.Holds : Kind → Json → Prop
  | .text, v => ∃ s, v = .string s
  | .number, v => ∃ n, v = .number n

theorem exists_seed_iff {kind : Kind} {v : Json} :
    (∃ seed, seedOf? v = some (kind, seed)) ↔ kind.Holds v := by
  constructor
  · rintro ⟨seed, hseed⟩
    cases v with
    | string s =>
      cases hseed
      exact ⟨s, rfl⟩
    | number n =>
      cases hseed
      exact ⟨n, rfl⟩
    | _ => cases hseed
  · cases kind with
    | text =>
      rintro ⟨s, rfl⟩
      exact ⟨_, rfl⟩
    | number =>
      rintro ⟨n, rfl⟩
      exact ⟨_, rfl⟩

/-- Texts make members, and so do numbers, but not both of them and nothing else. -/
theorem isSome_ofValues?_iff {values : List Json} : (ofValues? values).isSome = true ↔
    values ≠ [] ∧ ((∀ v ∈ values, ∃ s, v = .string s) ∨ ∀ v ∈ values, ∃ n, v = .number n) := by
  have hkinds : (∃ kind, ∀ v ∈ values, ∃ seed, seedOf? v = some (kind, seed)) ↔
      (∀ v ∈ values, ∃ s, v = .string s) ∨ ∀ v ∈ values, ∃ n, v = .number n := by
    simp only [exists_seed_iff]
    constructor
    · rintro ⟨kind, hvalues⟩
      cases kind with
      | text => exact Or.inl hvalues
      | number => exact Or.inr hvalues
    · rintro (htexts | hnumbers)
      · exact ⟨.text, htexts⟩
      · exact ⟨.number, hnumbers⟩
  rw [← hkinds, Option.isSome_iff_exists]
  constructor
  · rintro ⟨members, hmembers⟩
    obtain ⟨kind, seeds, hseeds, hne, -⟩ := ofValues?_eq_some_iff.mp hmembers
    refine ⟨?_, kind, fun v hv => ?_⟩
    · rintro rfl
      exact hne (List.forall₂_nil_left_iff.mp hseeds)
    · obtain ⟨seed, -, hseed⟩ := exists_right_of_mem hseeds hv
      exact ⟨seed, hseed⟩
  · rintro ⟨hne, kind, hkind⟩
    obtain ⟨seeds, hseeds⟩ := exists_forall₂ hkind
    refine ⟨_, ofValues?_eq_some_iff.mpr ⟨kind, seeds, hseeds, ?_, rfl⟩⟩
    rintro rfl
    exact hne (List.forall₂_nil_right_iff.mp hseeds)

theorem ne_nil_of_ofValues? {values : List Json} {members : List EnumMember}
    (h : ofValues? values = some members) : members ≠ [] := by
  obtain ⟨_, seeds, -, hne, rfl⟩ := ofValues?_eq_some_iff.mp h
  obtain ⟨first, rest, rfl⟩ := List.exists_cons_of_ne_nil hne
  exact List.cons_ne_nil _ _

theorem values_of_ofValues? {values : List Json} {members : List EnumMember}
    (h : ofValues? values = some members) :
    (∀ member ∈ members, Text.IsStringLiteral member.value) ∨
      ∀ member ∈ members, Text.IsDecimal member.value.toList := by
  obtain ⟨kind, hmembers⟩ := exists_kind_of_ofValues? h
  cases kind with
  | text =>
    refine Or.inl fun member hmember => ?_
    obtain ⟨v, seed, occurrence, hseed, rfl⟩ := hmembers member hmember
    obtain ⟨s, rfl⟩ := exists_seed_iff.mp ⟨seed, hseed⟩
    cases hseed
    exact Text.isStringLiteral_quote s
  | number =>
    refine Or.inr fun member hmember => ?_
    obtain ⟨v, seed, occurrence, hseed, rfl⟩ := hmembers member hmember
    obtain ⟨n, rfl⟩ := exists_seed_iff.mp ⟨seed, hseed⟩
    cases hseed
    exact n.isDecimal_literal

end EnumMember

/-! ### Registries -/

theorem EnumCall.MayDeclare.valid {call : EnumCall} {entry : String × List EnumMember}
    (h : call.MayDeclare entry) : EnumDecl.Valid ⟨entry.1, entry.2⟩ where
  name_isIdentifier := by
    obtain ⟨-, n, hname⟩ := h
    rw [hname]
    exact EnumDecl.isIdentifier_candidate (EnumDecl.isIdentifier_baseName call.hint call.values) n
  name_notMem := by
    obtain ⟨-, n, hname⟩ := h
    rw [hname]
    exact Registry.candidate_notMem call.base_endsInEnum n (by decide)
  members_ne_nil := EnumMember.ne_nil_of_ofValues? h.1
  member_isIdentifier := by
    intro member hmember
    obtain ⟨_, hseeds⟩ := EnumMember.exists_kind_of_ofValues? h.1
    obtain ⟨v, seed, occurrence, -, rfl⟩ := hseeds member hmember
    exact EnumMember.isIdentifier_numberedStem (EnumMember.isIdentifier_identifierStem seed.name)
      occurrence
  values := EnumMember.values_of_ofValues? h.1

theorem Registry.Reaches.valid {registry : Registry} (h : Registry.empty.Reaches registry)
    {entry : String × List EnumMember} (hentry : entry ∈ registry.entries) :
    EnumDecl.Valid ⟨entry.1, entry.2⟩ := by
  rcases h.mem_entries hentry with hempty | ⟨call, hcall⟩
  · exact absurd hempty List.not_mem_nil
  · exact hcall.valid

theorem Registry.exists_of_get? {registry : Registry} {name : String} {decl : EnumDecl}
    (h : registry.get? name = some decl) :
    (name, decl.members) ∈ registry.entries ∧ decl.name = name := by
  obtain ⟨members, hmembers, rfl⟩ := Option.map_eq_some_iff.mp h
  exact ⟨Table.mem_of_get? hmembers, rfl⟩

/-- In every registry that calls lead to, a call gives a type just when its values are texts, or
numbers, and at least one.  The type refers to an enum with the members for the values.  That enum,
and every other one that is declared then, is valid and stands under its own name. -/
theorem EnumCall.declarations_valid {registry : Registry}
    (hreach : Registry.empty.Reaches registry) (call : EnumCall) :
    ((call.outcome registry).value.isSome = true ↔ call.values ≠ [] ∧
      ((∀ v ∈ call.values, ∃ s, v = .string s) ∨ ∀ v ∈ call.values, ∃ n, v = .number n)) ∧
    (∀ type, (call.outcome registry).value = some type → ∃ decl : EnumDecl,
      type = call.usage decl.name ∧ call.members? = some decl.members ∧
        (call.outcome registry).enums.get? decl.name = some decl ∧ decl.Valid) ∧
    ∀ name decl, (call.outcome registry).enums.get? name = some decl →
      decl.name = name ∧ decl.Valid := by
  have hvalid : ∀ name decl, (call.outcome registry).enums.get? name = some decl →
      decl.name = name ∧ decl.Valid := by
    intro name decl hdecl
    obtain ⟨hentry, rfl⟩ := Registry.exists_of_get? hdecl
    exact ⟨rfl, (hreach.trans (Registry.Reaches.call registry call)).valid hentry⟩
  rw [← EnumMember.isSome_ofValues?_iff, ← members?]
  cases hmembers : call.members? with
  | none =>
    rw [(outcome_of_none hmembers registry).1]
    exact ⟨Iff.rfl, nofun, hvalid⟩
  | some members =>
    have hfound : (call.outcome registry).enums.get? (registry.choose call.base members) =
        some ⟨registry.choose call.base members, members⟩ :=
      congrArg (Option.map _) (members?_outcome_self hmembers registry)
    rw [(outcome_of_some hmembers registry).1]
    refine ⟨by simp, fun type htype => ?_, hvalid⟩
    exact ⟨⟨registry.choose call.base members, members⟩, (Option.some.inj htype).symm, rfl, hfound,
      (hvalid _ _ hfound).2⟩

/-- A hint with a digit in front, a name that is taken, and numbers with a sign and a point. -/
theorem EnumCall.declarations_valid_digits :
    let texts : EnumCall := ⟨"2fa", [.string "on", .string "off"], false⟩
    let numbers : EnumCall :=
      ⟨"2fa", [.number (.double ⟨true, 6755399441055744, -52⟩), .number (.integer 10)], true⟩
    Registry.empty.Reaches (Registry.empty.after [texts]) ∧
    (numbers.outcome (Registry.empty.after [texts])).value =
        some (.union [.enumRef "_2FaEnum2", .null]) ∧
      EnumDecl.Valid ⟨"_2FaEnum2", [⟨"VALUE_NEG_1_5", "-1.5"⟩, ⟨"VALUE_10", "10"⟩]⟩ := by
  intro texts numbers
  have hreach : Registry.empty.Reaches (Registry.empty.after [texts]) := ⟨[texts], rfl⟩
  have hmembers : numbers.members? =
      some [⟨"VALUE_NEG_1_5", "-1.5"⟩, ⟨"VALUE_10", "10"⟩] := by decide +kernel
  have hname : (Registry.empty.after [texts]).choose numbers.base
      [⟨"VALUE_NEG_1_5", "-1.5"⟩, ⟨"VALUE_10", "10"⟩] = "_2FaEnum2" := by decide +kernel
  have htype : (numbers.outcome (Registry.empty.after [texts])).value =
      some (.union [.enumRef "_2FaEnum2", .null]) := by
    rw [(outcome_of_some hmembers _).1, hname]
    rfl
  have hfound : (numbers.outcome (Registry.empty.after [texts])).enums.get? "_2FaEnum2" =
      some ⟨"_2FaEnum2", [⟨"VALUE_NEG_1_5", "-1.5"⟩, ⟨"VALUE_10", "10"⟩]⟩ := by decide +kernel
  obtain ⟨-, -, hall⟩ := declarations_valid hreach numbers
  exact ⟨hreach, htype, (hall _ _ hfound).2⟩

end OpenApiTypings
