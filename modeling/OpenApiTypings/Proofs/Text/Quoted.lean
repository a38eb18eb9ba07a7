import OpenApiTypings.Text.Quoted

/-!
# Reading quoted literals

A reader of double-quoted literals that knows nothing of how they are written: it
replaces escapes and refuses a control character, a quote that is not the last
character, and an escape it does not know.  It gives back every text that was quoted.
-/

namespace OpenApiTypings.Text

/-! ### Escapes -/

/-- The value of a hexadecimal digit. -/
def hexValue? (c : Char) : Option Nat :=
  if c.isDigit then some (c.toNat - 0x30)
  else if 'a' ≤ c ∧ c ≤ 'f' then some (c.toNat - 0x61 + 10)
  else none

/-- The character with a code of four hexadecimal digits. -/
def unicodeEscape? (a b c d : Char) : Option Char := do
  let code := (← hexValue? a) * 4096 + (← hexValue? b) * 256 + (← hexValue? c) * 16 +
    (← hexValue? d)
  return Char.ofNat code

/-- The character that stands for one character behind a backslash. -/
def simpleEscape? (c : Char) : Option Char :=
  if c = '\\' then some '\\'
  else if c = '"' then some '"'
  else if c = 'n' then some '\n'
  else if c = 'r' then some '\r'
  else if c = 't' then some '\t'
  else none

/-! ### Literals -/

/-- Reads the body of a literal together with its closing quote. -/
def readBody? : List Char → Option (List Char)
  | [] => none
  | '\\' :: 'u' :: a :: b :: c :: d :: rest => do
      return (← unicodeEscape? a b c d) :: (← readBody? rest)
  | '\\' :: c :: rest => do return (← simpleEscape? c) :: (← readBody? rest)
  | c :: rest =>
      if c = '"' then if rest.isEmpty then some [] else none
      else if c = '\\' || isControl c then none
      else (readBody? rest).map (c :: ·)

/-- The text of a double-quoted literal. -/
def readQuoted? (literal : String) : Option String :=
  match literal.toList with
  | '"' :: body => (readBody? body).map String.ofList
  | _ => none

theorem unicodeEscape?_hex4 {n : Nat} (hn : n < 160) :
    unicodeEscape? (hexDigit (n / 4096 % 16)) (hexDigit (n / 256 % 16))
      (hexDigit (n / 16 % 16)) (hexDigit (n % 16)) = some (Char.ofNat n) := by
  revert n
  decide +kernel

theorem isDigit_iff {c : Char} : c.isDigit = true ↔ '0' ≤ c ∧ c ≤ '9' := by
  simp [Char.isDigit, Char.le_def]

theorem isUpper_iff {c : Char} : c.isUpper = true ↔ 'A' ≤ c ∧ c ≤ 'Z' :=
  decide_eq_true_iff

theorem isLower_iff {c : Char} : c.isLower = true ↔ 'a' ≤ c ∧ c ≤ 'z' := by
  rw [← decide_eq_true_iff (p := 'a' ≤ c), ← decide_eq_true_iff (p := c ≤ 'z')]
  exact Bool.and_eq_true_iff

theorem lt_of_isControl {c : Char} (hc : isControl c = true) : c.toNat < 160 := by
  simp only [isControl, Bool.or_eq_true, Bool.and_eq_true, decide_eq_true_eq] at hc
  omega

theorem readBody?_plain {c : Char} (hquote : c ≠ '"') (hslash : c ≠ '\\')
    (hcontrol : isControl c = false) (rest : List Char) :
    readBody? (c :: rest) = (readBody? rest).map (c :: ·) := by
  rw [readBody?]
  · simp [hquote, hslash, hcontrol]
  · intro a b d e more heq
    exact absurd heq hslash
  · intro d more heq
    exact absurd heq hslash

/-- A character is read back from the way it is written. -/
theorem readBody?_escapeChar (c : Char) (rest : List Char) :
    readBody? (escapeChar c ++ rest) = (readBody? rest).map (c :: ·) := by
  unfold escapeChar
  by_cases hslash : c = '\\'
  · subst hslash
    cases h : readBody? rest <;> simp [readBody?, simpleEscape?, h]
  by_cases hquote : c = '"'
  · subst hquote
    cases h : readBody? rest <;> simp [readBody?, simpleEscape?, h]
  by_cases hnewline : c = '\n'
  · subst hnewline
    cases h : readBody? rest <;> simp [readBody?, simpleEscape?, h]
  by_cases hreturn : c = '\r'
  · subst hreturn
    cases h : readBody? rest <;> simp [readBody?, simpleEscape?, h]
  by_cases htab : c = '\t'
  · subst htab
    cases h : readBody? rest <;> simp [readBody?, simpleEscape?, h]
  rw [if_neg hslash, if_neg hquote, if_neg hnewline, if_neg hreturn, if_neg htab]
  cases hcontrol : isControl c with
  | true =>
    have hcode := unicodeEscape?_hex4 (lt_of_isControl hcontrol)
    rw [Char.ofNat_toNat] at hcode
    rw [if_pos rfl]
    simp only [hex4, List.cons_append, List.nil_append, readBody?, hcode]
    cases h : readBody? rest <;> simp
  | false => exact readBody?_plain hquote hslash hcontrol rest

theorem readBody?_escape (text : List Char) :
    readBody? (text.flatMap escapeChar ++ ['"']) = some text := by
  induction text with
  | nil => simp [readBody?]
  | cons c rest ih =>
    rw [List.flatMap_cons, List.append_assoc, readBody?_escapeChar, ih]
    rfl

theorem quote_toList (s : String) :
    (quote s).toList = '"' :: (s.toList.flatMap escapeChar ++ ['"']) := by
  simp [quote, escape]

/-- Every text is read back from its literal. -/
theorem readQuoted?_quote (s : String) : readQuoted? (quote s) = some s := by
  rw [readQuoted?, quote_toList]
  simp only [readBody?_escape, Option.map_some, String.ofList_toList]

end OpenApiTypings.Text
