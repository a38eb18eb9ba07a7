import Mathlib.Data.List.Infix
import OpenApiTypings.Text.Lines

/-!
# Taking marks away

A mark is found where it occurs first.  A character that is no part of the mark keeps
what stands before it and what stands behind it apart: the mark lies on one side.
-/

namespace OpenApiTypings.Text

theorem dropHead?_eq_some_iff {head text rest : List Char} :
    dropHead? head text = some rest ↔ text = head ++ rest := by
  induction head generalizing text with
  | nil => simp [dropHead?]
  | cons h hs ih =>
    cases text with
    | nil => simp [dropHead?]
    | cons c cs =>
      simp only [dropHead?]
      by_cases heq : h = c
      · subst heq
        rw [if_pos rfl, ih]
        simp
      · rw [if_neg heq]
        simp [Ne.symm heq]

/-- A character outside the head ends the part of the text that can hold it. -/
theorem dropHead?_append_stop {stop : Char} {head : List Char} (hstop : stop ∉ head)
    (before behind : List Char) :
    dropHead? head (before ++ stop :: behind) =
      (dropHead? head before).map (· ++ stop :: behind) := by
  induction head generalizing before with
  | nil => rfl
  | cons h hs ih =>
    have hne : h ≠ stop := fun heq => hstop (heq ▸ List.mem_cons_self)
    cases before with
    | nil => simp [dropHead?, hne]
    | cons c cs =>
      simp only [dropHead?, List.cons_append]
      by_cases heq : h = c
      · rw [if_pos heq, if_pos heq]
        exact ih (fun hmem => hstop (List.mem_cons_of_mem _ hmem)) cs
      · rw [if_neg heq, if_neg heq]
        rfl

theorem dropTail?_eq_some_iff {tail text rest : List Char} :
    dropTail? tail text = some rest ↔ text = rest ++ tail := by
  rw [dropTail?, Option.map_eq_some_iff]
  simp only [dropHead?_eq_some_iff]
  constructor
  · rintro ⟨reversed, htext, rfl⟩
    rw [← List.reverse_reverse text, htext, List.reverse_append, List.reverse_reverse]
  · rintro rfl
    exact ⟨rest.reverse, List.reverse_append, List.reverse_reverse rest⟩

theorem dropTail?_eq_none_iff {tail text : List Char} :
    dropTail? tail text = none ↔ ¬ tail <:+ text := by
  rw [Option.eq_none_iff_forall_ne_some]
  simp only [ne_eq, dropTail?_eq_some_iff]
  exact ⟨fun h ⟨rest, heq⟩ => h rest heq.symm, fun h rest heq => h ⟨rest, heq.symm⟩⟩

theorem dropThrough?_cons (mark : List Char) (c : Char) (rest : List Char) :
    dropThrough? mark (c :: rest) =
      (dropHead? mark (c :: rest)).or (dropThrough? mark rest) := by
  rw [dropThrough?]
  cases dropHead? mark (c :: rest) with
  | none => rfl
  | some behind => rfl

theorem dropThrough?_append_stop {stop : Char} {mark : List Char} (hstop : stop ∉ mark)
    (hmark : mark ≠ []) (before behind : List Char) :
    dropThrough? mark (before ++ stop :: behind) =
      ((dropThrough? mark before).map (· ++ stop :: behind)).or
        (dropThrough? mark behind) := by
  induction before with
  | nil =>
    obtain ⟨m, ms, rfl⟩ := List.exists_cons_of_ne_nil hmark
    rw [List.nil_append, dropThrough?_cons]
    have hhead := dropHead?_append_stop hstop [] behind
    rw [List.nil_append] at hhead
    rw [hhead]
    rfl
  | cons c cs ih =>
    rw [List.cons_append, dropThrough?_cons, dropThrough?_cons, ih]
    rw [← List.cons_append, dropHead?_append_stop hstop]
    cases dropHead? mark (c :: cs) with
    | none => rfl
    | some rest => rfl

theorem dropThrough?_eq_none_iff {mark text : List Char} :
    dropThrough? mark text = none ↔ ¬ mark <:+: text := by
  induction text with
  | nil =>
    rw [dropThrough?, Option.eq_none_iff_forall_ne_some, List.infix_nil]
    simp only [ne_eq, dropHead?_eq_some_iff]
    constructor
    · rintro h rfl
      exact h [] rfl
    · intro h rest heq
      exact h (List.append_eq_nil_iff.mp heq.symm).1
  | cons c cs ih =>
    rw [dropThrough?_cons, Option.or_eq_none_iff, ih, List.infix_cons_iff, not_or,
      Option.eq_none_iff_forall_ne_some]
    simp only [ne_eq, dropHead?_eq_some_iff]
    constructor
    · rintro ⟨hhead, hrest⟩
      exact ⟨fun ⟨rest, heq⟩ => hhead rest heq.symm, hrest⟩
    · rintro ⟨hhead, hrest⟩
      exact ⟨fun rest heq => hhead ⟨rest, heq.symm⟩, hrest⟩

theorem infix_append_stop {stop : Char} {mark : List Char} (hstop : stop ∉ mark)
    (hmark : mark ≠ []) (before behind : List Char) :
    mark <:+: before ++ stop :: behind ↔ mark <:+: before ∨ mark <:+: behind := by
  have hnone := dropThrough?_append_stop hstop hmark before behind
  rw [← not_iff_not, not_or, ← dropThrough?_eq_none_iff, ← dropThrough?_eq_none_iff,
    ← dropThrough?_eq_none_iff, hnone, Option.or_eq_none_iff, Option.map_eq_none_iff]

theorem dropThrough?_eq_none_of_notMem {mark text : List Char} {c : Char} (hmark : c ∈ mark)
    (htext : c ∉ text) : dropThrough? mark text = none :=
  dropThrough?_eq_none_iff.mpr fun hfound => htext (hfound.subset hmark)

theorem dropThrough?_append (mark rest : List Char) :
    dropThrough? mark (mark ++ rest) = some rest := by
  have hhead : dropHead? mark (mark ++ rest) = some rest := dropHead?_eq_some_iff.mpr rfl
  cases htext : mark ++ rest with
  | nil =>
    rw [htext] at hhead
    exact hhead
  | cons c cs =>
    rw [htext] at hhead
    rw [dropThrough?_cons, hhead]
    rfl

end OpenApiTypings.Text
