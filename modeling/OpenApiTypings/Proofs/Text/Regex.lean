import Mathlib.Data.List.Basic

/-!
# Regular expressions

A few shapes of regular expressions and the texts they match: the two ends of a text, a
character, any character, a digit, and repetitions of the last three.  An expression of
another shape is not read.  A character is a code point, and an expression may match
anywhere in a text.
-/

namespace OpenApiTypings.Regex

/-- What stands for one character of a text. -/
inductive Atom where
  | char (c : Char)
  | any
  | digit
  deriving DecidableEq

/-- How often a character is repeated. -/
inductive Count where
  | once
  | anyNumber
  | atLeastOnce
  deriving DecidableEq

/-- A part of an expression. -/
inductive Item where
  | start
  | finish
  | run (atom : Atom) (count : Count)
  deriving DecidableEq

/-! ### Matching -/

/-- The characters that end a line. -/
def lineEnds : List Char := ['\n', '\r', '\u2028', '\u2029']

/-- The digits. -/
def digits : List Char := "0123456789".toList

def Atom.Accepts : Atom → Char → Prop
  | .char c, given => given = c
  | .any, given => given ∉ lineEnds
  | .digit, given => given ∈ digits

def Count.Allows : Count → Nat → Prop
  | .once, n => n = 1
  | .anyNumber, _ => True
  | .atLeastOnce, n => 0 < n

/-- The items match a beginning of a text with another text in front of it. -/
def Matches : List Item → List Char → List Char → Prop
  | [], _, _ => True
  | .start :: items, front, text => front = [] ∧ Matches items front text
  | .finish :: items, front, text => text = [] ∧ Matches items front text
  | .run atom count :: items, front, text =>
      ∃ run rest, text = run ++ rest ∧ count.Allows run.length ∧ (∀ c ∈ run, atom.Accepts c) ∧
        Matches items (front ++ run) rest

/-- The items match somewhere in a text. -/
def Finds (items : List Item) (text : List Char) : Prop :=
  ∃ front behind, text = front ++ behind ∧ Matches items front behind

/-- The items that match the characters of a text one by one. -/
def chars (text : List Char) : List Item :=
  text.map fun c => .run (.char c) .once

theorem matches_chars_append_iff {text : List Char} {items : List Item}
    {front behind : List Char} :
    Matches (chars text ++ items) front behind ↔
      ∃ rest, behind = text ++ rest ∧ Matches items (front ++ text) rest := by
  induction text generalizing front behind with
  | nil => simp [chars]
  | cons c cs ih =>
    have hhead : Matches (chars (c :: cs) ++ items) front behind ↔
        ∃ run rest, behind = run ++ rest ∧ run.length = 1 ∧ (∀ given ∈ run, given = c) ∧
          Matches (chars cs ++ items) (front ++ run) rest := Iff.rfl
    rw [hhead]
    constructor
    · rintro ⟨run, rest, rfl, hlength, hall, hrest⟩
      obtain ⟨given, rfl⟩ := List.length_eq_one_iff.mp hlength
      obtain rfl := hall given List.mem_cons_self
      obtain ⟨more, rfl, hmore⟩ := ih.mp hrest
      exact ⟨more, rfl, by simpa using hmore⟩
    · rintro ⟨rest, rfl, hrest⟩
      exact ⟨[c], cs ++ rest, rfl, rfl, by simp, ih.mpr ⟨rest, rfl, by simpa using hrest⟩⟩

/-- An expression that begins at the beginning of a text is found at the beginning only. -/
theorem finds_start_iff {items : List Item} {text : List Char} :
    Finds (.start :: items) text ↔ Matches items [] text := by
  constructor
  · rintro ⟨front, behind, rfl, rfl, hmatches⟩
    exact hmatches
  · intro hmatches
    exact ⟨[], text, rfl, rfl, hmatches⟩

theorem finds_start_chars_iff {text : List Char} {items : List Item} {key : List Char} :
    Finds (.start :: (chars text ++ items)) key ↔
      ∃ rest, key = text ++ rest ∧ Matches items text rest := by
  rw [finds_start_iff, matches_chars_append_iff]
  rfl

/-! ### Reading -/

/-- The characters that do not stand for themselves. -/
def syntaxCharacters : List Char := "^$\\.*+?()[]\x7b\x7d|".toList

/-- A piece of the text of an expression. -/
inductive Token where
  | start
  | finish
  | atom (atom : Atom)
  | count (count : Count)
  deriving DecidableEq

/-- The token of one character. -/
def token? (c : Char) : Option Token :=
  if c = '^' then some .start
  else if c = '$' then some .finish
  else if c = '.' then some (.atom .any)
  else if c = '*' then some (.count .anyNumber)
  else if c = '+' then some (.count .atLeastOnce)
  else if c ∈ syntaxCharacters then none
  else some (.atom (.char c))

/-- The tokens of an expression. -/
def tokens? : List Char → Option (List Token)
  | [] => some []
  | '\\' :: 'd' :: rest => (tokens? rest).map (.atom .digit :: ·)
  | '[' :: '0' :: '-' :: '9' :: ']' :: rest => (tokens? rest).map (.atom .digit :: ·)
  | c :: rest => do return (← token? c) :: (← tokens? rest)

/-- The items that tokens make up. -/
def items? : List Token → Option (List Item)
  | [] => some []
  | .start :: rest => (items? rest).map (.start :: ·)
  | .finish :: rest => (items? rest).map (.finish :: ·)
  | .atom atom :: .count count :: rest => (items? rest).map (.run atom count :: ·)
  | .atom atom :: rest => (items? rest).map (.run atom .once :: ·)
  | .count _ :: _ => none

/-- Reads an expression. -/
def read? (pattern : List Char) : Option (List Item) :=
  (tokens? pattern).bind items?

theorem token?_of_notMem {c : Char} (hc : c ∉ syntaxCharacters) :
    token? c = some (.atom (.char c)) := by
  have hne : ∀ special ∈ syntaxCharacters, c ≠ special := fun special hspecial heq =>
    hc (heq ▸ hspecial)
  simp [token?, hc, hne '^' (by decide), hne '$' (by decide), hne '.' (by decide),
    hne '*' (by decide), hne '+' (by decide)]

theorem tokens?_append {text : List Char} (htext : ∀ c ∈ text, c ∉ syntaxCharacters)
    (rest : List Char) :
    tokens? (text ++ rest) =
      (tokens? rest).map ((text.map fun c => Token.atom (.char c)) ++ ·) := by
  induction text with
  | nil => simp
  | cons c cs ih =>
    rw [List.forall_mem_cons] at htext
    have hslash : c ≠ '\\' := fun heq => htext.1 (heq ▸ by decide)
    have hbracket : c ≠ '[' := fun heq => htext.1 (heq ▸ by decide)
    have hhead : tokens? (c :: (cs ++ rest)) =
        (do return (← token? c) :: (← tokens? (cs ++ rest))) := by
      rw [tokens?]
      · intro more heq
        exact absurd heq hslash
      · intro more heq
        exact absurd heq hbracket
    rw [List.cons_append, hhead, token?_of_notMem htext.1, ih htext.2]
    cases tokens? rest <;> rfl

theorem items?_append (text : List Char) {tokens : List Token}
    (htokens : ∀ count more, tokens ≠ .count count :: more) :
    items? ((text.map fun c => Token.atom (.char c)) ++ tokens) =
      (items? tokens).map (chars text ++ ·) := by
  induction text with
  | nil => simp [chars]
  | cons c cs ih =>
    have hhead : items? (.atom (.char c) :: ((cs.map fun c => Token.atom (.char c)) ++ tokens)) =
        (items? ((cs.map fun c => Token.atom (.char c)) ++ tokens)).map
          (.run (.char c) .once :: ·) := by
      rw [items?]
      intro count more heq
      cases cs with
      | nil => exact htokens count more heq
      | cons d ds => cases heq
    rw [List.map_cons, List.cons_append, hhead, ih, Option.map_map]
    rfl

/-- An expression that begins at the beginning of a text and goes on with characters that stand
for themselves. -/
theorem read?_start {text : List Char} (htext : ∀ c ∈ text, c ∉ syntaxCharacters)
    {tail : List Char} {tokens : List Token} {items : List Item}
    (htail : tokens? tail = some tokens) (htokens : ∀ count more, tokens ≠ .count count :: more)
    (hitems : items? tokens = some items) :
    read? ('^' :: (text ++ tail)) = some (.start :: (chars text ++ items)) := by
  have hstart : tokens? ('^' :: (text ++ tail)) =
      (do return (← token? '^') :: (← tokens? (text ++ tail))) := by
    rw [tokens?]
    · intro more heq
      exact absurd heq (by decide)
    · intro more heq
      exact absurd heq (by decide)
  have hstartToken : token? '^' = some .start := by decide
  rw [read?, hstart, tokens?_append htext, htail, hstartToken]
  simp [items?, items?_append text htokens, hitems]

end OpenApiTypings.Regex
