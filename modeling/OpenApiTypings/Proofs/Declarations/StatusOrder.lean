import OpenApiTypings.Proofs.Declarations.Brackets
import OpenApiTypings.Proofs.Declarations.Complete

/-!
# Responses in the order of their codes

Codes are compared by a rank and then as texts.  The rank of a number is its value, and all other
codes come after the numbers, with one rank for all of them.  So the comparison is a linear order,
and since no code stands twice in a table, sorting leaves a strictly increasing list: each response
of an operation is written once.
-/

namespace OpenApiTypings

namespace Status

/-! ### Codes that are numbers -/

/-- The code consists of decimal digits, and its value fits into 64 bits. -/
structure IsNumber (code : String) (n : Nat) : Prop where
  nonempty : code ≠ ""
  digits : ∀ c ∈ code.toList, '0' ≤ c ∧ c ≤ '9'
  value : digitsValue code.toList = n
  fits : n < 2 ^ 64

theorem number?_eq_some_iff {code : String} {n : Nat} :
    number? code = some n ↔ IsNumber code n := by
  have hempty : code.toList.isEmpty = false ↔ code ≠ "" := by
    rw [List.isEmpty_eq_false_iff, Ne, String.toList_eq_nil_iff]
  have hdigits : code.toList.all Char.isDigit = true ↔ ∀ c ∈ code.toList, '0' ≤ c ∧ c ≤ '9' := by
    simp only [List.all_eq_true, Text.isDigit_iff]
  constructor
  · intro h
    simp only [number?] at h
    split at h
    · cases h
    · rename_i hplain
      simp only [Bool.or_eq_true, Bool.not_eq_true', not_or, Bool.not_eq_true,
        Bool.not_eq_false] at hplain
      split at h
      · rename_i hfits
        cases h
        exact ⟨hempty.mp hplain.1, hdigits.mp hplain.2, rfl, hfits⟩
      · cases h
  · rintro ⟨hne, hall, rfl, hfits⟩
    have hlt : digitsValue code.toList < Nat.pow 2 64 := hfits
    simp [number?, hempty.mpr hne, hdigits.mpr hall, hlt]

theorem IsNumber.iff_eq {code : String} {m n : Nat} (h : IsNumber code n) :
    IsNumber code m ↔ m = n := by
  constructor
  · intro hm
    exact hm.value.symm.trans h.value
  · rintro rfl
    exact h

theorem number?_eq_none_iff {code : String} : number? code = none ↔ ∀ n, ¬IsNumber code n := by
  simp only [Option.eq_none_iff_forall_ne_some, Ne, number?_eq_some_iff]

theorem number?_lt {code : String} {n : Nat} (h : number? code = some n) : n < 2 ^ 64 :=
  (number?_eq_some_iff.mp h).fits

/-! ### The order of codes -/

/-- Numbers by value, and then all other codes. -/
def rank (code : String) : Nat := (number? code).getD (2 ^ 64)

theorem compareTexts_eq (a b : String) : compareTexts a b = Ord.compare a b := rfl

theorem compare_eq : compare = compareLex (compareOn rank) Ord.compare := by
  funext a b
  unfold compare compareLex compareOn rank
  cases ha : number? a with
  | none =>
    cases hb : number? b with
    | none => simp [compareTexts_eq]
    | some y =>
      have hgt : Ord.compare (2 ^ 64) y = .gt := Nat.compare_eq_gt.mpr (number?_lt hb)
      simp only [Option.getD_none, Option.getD_some, hgt, Ordering.gt_then]
  | some x =>
    cases hb : number? b with
    | none =>
      have hlt : Ord.compare x (2 ^ 64) = .lt := Nat.compare_eq_lt.mpr (number?_lt ha)
      simp only [Option.getD_none, Option.getD_some, hlt, Ordering.lt_then]
    | some y => rfl

instance : Std.TransCmp compare :=
  compare_eq ▸ inferInstanceAs (Std.TransCmp (compareLex (compareOn rank) Ord.compare))

instance : Std.LawfulEqCmp compare where
  compare_self := Std.ReflCmp.compare_self
  eq_of_compare {a b} h := by
    rw [compare_eq, compareLex, Ordering.then_eq_eq] at h
    exact Std.LawfulEqOrd.eq_of_compare h.2

/-- Numbers come first, by value and then as texts.  All other codes follow as texts. -/
inductive Precedes (a b : String) : Prop
  | value {x y : Nat} (ha : IsNumber a x) (hb : IsNumber b y) (hlt : x < y)
  | spelling {x : Nat} (ha : IsNumber a x) (hb : IsNumber b x) (hlt : a < b)
  | number {x : Nat} (ha : IsNumber a x) (hb : ∀ y, ¬IsNumber b y)
  | text (ha : ∀ x, ¬IsNumber a x) (hb : ∀ y, ¬IsNumber b y) (hlt : a < b)

theorem compareTexts_eq_lt_iff {a b : String} : compareTexts a b = .lt ↔ a < b := by
  unfold compareTexts
  split
  · simpa using ‹a < b›
  · split <;> simpa using ‹¬a < b›

theorem compare_eq_lt_iff {a b : String} : compare a b = .lt ↔ Precedes a b := by
  constructor
  · intro h
    unfold compare at h
    cases ha : number? a with
    | none =>
      cases hb : number? b with
      | none =>
        simp only [ha, hb, compareTexts_eq_lt_iff] at h
        exact .text (number?_eq_none_iff.mp ha) (number?_eq_none_iff.mp hb) h
      | some y => simp [ha, hb] at h
    | some x =>
      cases hb : number? b with
      | none => exact .number (number?_eq_some_iff.mp ha) (number?_eq_none_iff.mp hb)
      | some y =>
        simp only [ha, hb, Ordering.then_eq_lt, Nat.compare_eq_lt, Nat.compare_eq_eq,
          compareTexts_eq_lt_iff] at h
        rcases h with hlt | ⟨rfl, hlt⟩
        · exact .value (number?_eq_some_iff.mp ha) (number?_eq_some_iff.mp hb) hlt
        · exact .spelling (number?_eq_some_iff.mp ha) (number?_eq_some_iff.mp hb) hlt
  · intro h
    unfold compare
    cases h with
    | value ha hb hlt =>
      simp [number?_eq_some_iff.mpr ha, number?_eq_some_iff.mpr hb, Nat.compare_eq_lt.mpr hlt]
    | spelling ha hb hlt =>
      simp [number?_eq_some_iff.mpr ha, number?_eq_some_iff.mpr hb, compareTexts_eq_lt_iff.mpr hlt]
    | number ha hb => simp [number?_eq_some_iff.mpr ha, number?_eq_none_iff.mpr hb]
    | text ha hb hlt =>
      simp [number?_eq_none_iff.mpr ha, number?_eq_none_iff.mpr hb, compareTexts_eq_lt_iff.mpr hlt]

/-! ### Sorted entries -/

/-- The entries of the table, each of them once, with strictly increasing codes. -/
structure SortedOf (entries table : Table α) : Prop where
  perm : entries.Perm table
  increasing : entries.Pairwise fun e f => compare e.1 f.1 = .lt

theorem increasing_insertByCode {entry : String × α} {entries : List (String × α)}
    (hnew : ∀ other ∈ entries, other.1 ≠ entry.1)
    (h : entries.Pairwise fun e f => compare e.1 f.1 = .lt) :
    (insertByCode entry entries).Pairwise fun e f => compare e.1 f.1 = .lt := by
  induction entries with
  | nil => exact List.pairwise_singleton ..
  | cons head rest ih =>
    obtain ⟨hhead, hrest⟩ := List.pairwise_cons.mp h
    obtain ⟨hne, hnew⟩ := List.forall_mem_cons.mp hnew
    rw [insertByCode]
    split
    · rename_i hlt
      refine List.pairwise_cons.mpr ⟨fun other hother => ?_, ih hnew hrest⟩
      rcases List.mem_cons.mp ((perm_insertByCode entry rest).mem_iff.mp hother) with rfl | hmem
      · exact hlt
      · exact hhead other hmem
    · rename_i hnot
      have hfirst : compare entry.1 head.1 = .lt := by
        cases hcompare : compare head.1 entry.1 with
        | lt => exact absurd hcompare hnot
        | eq => exact absurd (Std.LawfulEqCmp.eq_of_compare hcompare) hne
        | gt => exact Std.OrientedCmp.lt_of_gt hcompare
      refine List.pairwise_cons.mpr ⟨fun other hother => ?_, h⟩
      rcases List.mem_cons.mp hother with rfl | hmem
      · exact hfirst
      · exact Std.TransCmp.lt_trans hfirst (hhead other hmem)

theorem sortedOf_sortByCode {table : Table α} (hkeys : table.keys.Nodup) :
    SortedOf (sortByCode table) table := by
  refine ⟨perm_sortByCode table, ?_⟩
  induction table with
  | nil => exact List.Pairwise.nil
  | cons entry rest ih =>
    obtain ⟨hentry, hrest⟩ := List.nodup_cons.mp hkeys
    refine increasing_insertByCode (fun other hother heq => hentry ?_) (ih hrest)
    rw [← heq]
    exact List.mem_map_of_mem ((perm_sortByCode rest).mem_iff.mp hother)

theorem SortedOf.unique {entries entries' table : Table α} (h : SortedOf entries table)
    (h' : SortedOf entries' table) : entries = entries' := by
  refine List.Perm.eq_of_pairwise (fun e f _ _ hlt hgt => ?_) h.increasing h'.increasing
    (h.perm.trans h'.perm.symm)
  exact absurd (Std.TransCmp.lt_trans hlt hgt) (by simp [Std.ReflCmp.compare_self])

end Status

/-! ### Operations -/

/-- The operations of the paths and the webhooks. -/
def Declarations.operations (decls : Declarations) : List OperationTypes :=
  (decls.paths ++ decls.webhooks).flatMap fun entry => entry.2.map Prod.snd

/-- No code is declared twice for one operation. -/
theorem Declarations.nodup_codes {doc : Document} {decls : Declarations}
    (h : build doc = .ok decls) : ∀ op ∈ decls.operations, op.responses.keys.Nodup := by
  obtain ⟨stored, heq, ⟨hpaths, hwebhooks⟩, -⟩ := exists_of_build h (compileDocument_declares doc)
  have hdeclared : ∀ compiled items, DeclaresItems doc compiled items →
      ∀ entry ∈ compiled, ∀ types ∈ entry.2, types.2.responses.keys.Nodup := by
    intro compiled items hitems entry hentry types htypes
    obtain ⟨_, slot, item, _, _, hitem⟩ := hitems.items entry hentry
    obtain ⟨op, _, hop⟩ := hitem.operations types htypes
    exact hop.responses.1
  intro op hop
  obtain ⟨entry, hentry, hop⟩ := List.mem_flatMap.mp hop
  obtain ⟨types, htypes, rfl⟩ := List.mem_map.mp hop
  rw [heq] at hentry
  rcases List.mem_append.mp hentry with hpath | hwebhook
  · exact hdeclared _ _ hpaths entry hpath types htypes
  · exact hdeclared _ _ hwebhooks entry hwebhook types htypes

/-- Codes are in a linear order, and an operation has its responses written in that order, each of
them once. -/
theorem renderResponses_sorted :
    (∀ a b, Status.compare b a = (Status.compare a b).swap) ∧
    (∀ a b c, (Status.compare a b).isLE → (Status.compare b c).isLE →
      (Status.compare a c).isLE) ∧
    (∀ a b, Status.compare a b = .eq ↔ a = b) ∧
    (∀ a b, Status.compare a b = .lt ↔ Status.Precedes a b) ∧
    (∀ op : OperationTypes, op.responses.keys.Nodup →
      ∃ entries, (∀ other, Status.SortedOf other op.responses ↔ other = entries) ∧
        op.renderResponses = "      responses: \x7b\n" ++
          String.join (entries.map fun entry =>
            Text.field "        " (Status.key entry.1) entry.2) ++ "      \x7d;\n") ∧
    ∀ doc decls, build doc = .ok decls → ∀ op ∈ decls.operations, op.responses.keys.Nodup := by
  refine ⟨fun a b => Std.OrientedCmp.eq_swap, fun a b c => Std.TransCmp.isLE_trans,
    fun a b => Std.LawfulEqCmp.compare_eq_iff_eq, fun a b => Status.compare_eq_lt_iff,
    fun op hkeys => ?_, fun doc decls => Declarations.nodup_codes⟩
  have hsorted := Status.sortedOf_sortByCode hkeys
  refine ⟨Status.sortByCode op.responses, fun other => ⟨fun h => h.unique hsorted, ?_⟩, rfl⟩
  rintro rfl
  exact hsorted

/-- A document with one operation, whose responses stand in no order. -/
def renewalDocument : Document where
  paths := [("/renewals", .inline { post := some { responses := [("default", .inline {}),
    ("18446744073709551616", .inline {}), ("200", .inline {}), ("4XX", .inline {}),
    ("", .inline {}), ("1000", .inline {}), ("0200", .inline {})] } })]

/-- What is declared for the operation. -/
def renewal : OperationTypes where
  responses := [("", "never"), ("0200", "never"), ("1000", "never"),
    ("18446744073709551616", "never"), ("200", "never"), ("4XX", "never"), ("default", "never")]

theorem renderResponses_sorted_renewal :
    build renewalDocument = .ok { paths := [("/renewals", [(.post, renewal)])] } ∧
      renewal.responses.keys.Nodup ∧
      renewal.renderResponses = "      responses: \x7b\n        0200: never;\n" ++
        "        200: never;\n        1000: never;\n        \"\": never;\n" ++
        "        \"18446744073709551616\": never;\n        \"4XX\": never;\n" ++
        "        default: never;\n      \x7d;\n" := by
  have hbuild : build renewalDocument =
      .ok { paths := [("/renewals", [(.post, renewal)])] } := rfl
  obtain ⟨-, -, -, -, hlists, hdistinct⟩ := renderResponses_sorted
  have hkeys := hdistinct _ _ hbuild renewal (List.mem_singleton_self _)
  obtain ⟨entries, hentries, htext⟩ := hlists renewal hkeys
  have hsorted : Status.SortedOf [("0200", "never"), ("200", "never"), ("1000", "never"),
      ("", "never"), ("18446744073709551616", "never"), ("4XX", "never"), ("default", "never")]
      renewal.responses := ⟨by decide +kernel, by decide +kernel⟩
  obtain rfl := (hentries _).mp hsorted
  refine ⟨hbuild, hkeys, htext.trans ?_⟩
  decide +kernel

end OpenApiTypings
