import OpenApiTypings.Proofs.Text.Quoted

/-!
# Values of string literals

The declaration language takes the value of a string literal to be a sequence of UTF-16 code
units.  `stringToken?` reads a double-quoted literal at the beginning of a text by the rules of
that language: all its escapes are read, a line break ends no literal and stands in none, and the
first quote that is not escaped is the end.

What `quote` writes is one such literal, whatever stands behind it, and its value is the text
that was quoted.  No two texts have the same code units, so nothing is lost.
-/

namespace OpenApiTypings.Text

/-! ### Code units -/

/-- The UTF-16 code units of a character: two surrogates beyond the basic plane. -/
def charUnits (c : Char) : List Nat :=
  if c.toNat < 0x10000 then [c.toNat]
  else [0xD800 + (c.toNat - 0x10000) / 0x400, 0xDC00 + (c.toNat - 0x10000) % 0x400]

def units (text : List Char) : List Nat := text.flatMap charUnits

/-- A character is no surrogate, so the first code unit tells how many there are. -/
theorem charUnits_append_inj {c d : Char} {rest more : List Nat}
    (h : charUnits c ++ rest = charUnits d ++ more) : c = d ∧ rest = more := by
  have hvalid : ∀ e : Char, e.toNat < 0xD800 ∨ 0xDFFF < e.toNat ∧ e.toNat < 0x110000 :=
    fun e => e.valid
  have hc := hvalid c
  have hd := hvalid d
  unfold charUnits at h
  split at h <;> split at h
  all_goals
    simp only [List.cons_append, List.nil_append, List.cons.injEq] at h
  · exact ⟨Char.toNat_inj.mp h.1, h.2⟩
  · omega
  · omega
  · exact ⟨Char.toNat_inj.mp (by omega), h.2.2⟩

theorem charUnits_ne_nil (c : Char) : charUnits c ≠ [] := by
  unfold charUnits
  split <;> simp

theorem units_injective : Function.Injective units := by
  intro text
  induction text with
  | nil =>
    intro other h
    cases other with
    | nil => rfl
    | cons d more => simp [units, charUnits_ne_nil] at h
  | cons c rest ih =>
    intro other h
    cases other with
    | nil => simp [units, charUnits_ne_nil] at h
    | cons d more =>
      simp only [units, List.flatMap_cons] at h
      obtain ⟨rfl, hrest⟩ := charUnits_append_inj h
      rw [ih hrest]

/-! ### Escapes -/

/-- The value of a hexadecimal digit in either case. -/
def hexDigitValue? (c : Char) : Option Nat :=
  if c.isDigit then some (c.toNat - 0x30)
  else if 'a' ≤ c ∧ c ≤ 'f' then some (c.toNat - 0x61 + 10)
  else if 'A' ≤ c ∧ c ≤ 'F' then some (c.toNat - 0x41 + 10)
  else none

/-- The number of one or more hexadecimal digits. -/
def readHex? (digits : List Char) : Option Nat :=
  if digits.isEmpty then none
  else digits.foldlM (fun n c => (hexDigitValue? c).map (n * 16 + ·)) 0

/-- The code units of a code point, which may be a surrogate alone. -/
def codePointUnits? (n : Nat) : Option (List Nat) :=
  if n < 0x10000 then some [n]
  else if n < 0x110000 then some (charUnits (Char.ofNat n))
  else none

/-- The character that a letter behind a backslash stands for. -/
def letterEscape? (c : Char) : Option Nat :=
  if c = 'b' then some 0x08
  else if c = 't' then some 0x09
  else if c = 'n' then some 0x0A
  else if c = 'v' then some 0x0B
  else if c = 'f' then some 0x0C
  else if c = 'r' then some 0x0D
  else none

/-- Reads what follows `\u`: four hexadecimal digits, or a code point in braces. -/
def unicodeEscapeAt? : List Char → Option (List Nat × List Char)
  | '\x7b' :: rest =>
      match rest.dropWhile (· ≠ '\x7d') with
      | [] => none
      | _ :: more => do
          let n ← readHex? (rest.takeWhile (· ≠ '\x7d'))
          return (← codePointUnits? n, more)
  | a :: b :: c :: d :: more => do return ([← readHex? [a, b, c, d]], more)
  | _ => none

/-- Reads what follows `\x`. -/
def byteEscapeAt? : List Char → Option (List Nat × List Char)
  | a :: b :: more => do return ([← readHex? [a, b]], more)
  | _ => none

/-- Reads what follows a backslash: its code units, and the text behind it.  A zero is an escape
unless a digit follows, and no other digit is one.  A line break is left out together with the
backslash, and any other character stands for itself. -/
def escapeAt? : List Char → Option (List Nat × List Char)
  | [] => none
  | c :: rest =>
      if c = 'x' then byteEscapeAt? rest
      else if c = 'u' then unicodeEscapeAt? rest
      else if c.isDigit then
        if c = '0' && !rest.head?.any Char.isDigit then some ([0], rest) else none
      else if c = '\r' && rest.head? = some '\n' then some ([], rest.tail)
      else if c = '\n' || c = '\r' || c = '\u2028' || c = '\u2029' then some ([], rest)
      else some (((letterEscape? c).map ([·])).getD (charUnits c), rest)

theorem length_le_of_unicodeEscapeAt? {text more : List Char} {front : List Nat}
    (h : unicodeEscapeAt? text = some (front, more)) : more.length ≤ text.length := by
  unfold unicodeEscapeAt? at h
  split at h
  · rename_i rest
    split at h
    · cases h
    · rename_i tail hdrop
      have hlength := (List.dropWhile_sublist (l := rest) (· ≠ '\x7d')).length_le
      simp only [hdrop, List.length_cons] at hlength
      simp only [bind, Option.bind_eq_some_iff, pure, Option.some.injEq, Prod.mk.injEq] at h
      obtain ⟨_, -, _, -, -, rfl⟩ := h
      simp only [List.length_cons]
      omega
  · simp only [bind, Option.bind_eq_some_iff, pure, Option.some.injEq, Prod.mk.injEq] at h
    obtain ⟨_, -, -, rfl⟩ := h
    simp only [List.length_cons]
    omega
  · cases h

theorem length_le_of_byteEscapeAt? {text more : List Char} {front : List Nat}
    (h : byteEscapeAt? text = some (front, more)) : more.length ≤ text.length := by
  unfold byteEscapeAt? at h
  split at h
  · simp only [bind, Option.bind_eq_some_iff, pure, Option.some.injEq, Prod.mk.injEq] at h
    obtain ⟨_, -, -, rfl⟩ := h
    simp only [List.length_cons]
    omega
  · cases h

theorem length_lt_of_escapeAt? {text more : List Char} {front : List Nat}
    (h : escapeAt? text = some (front, more)) : more.length < text.length := by
  cases text with
  | nil => cases h
  | cons c rest =>
    rw [List.length_cons, Nat.lt_succ_iff]
    simp only [escapeAt?] at h
    split at h
    · exact length_le_of_byteEscapeAt? h
    split at h
    · exact length_le_of_unicodeEscapeAt? h
    split at h
    · split at h
      · cases h
        exact Nat.le_refl _
      · cases h
    split at h
    · cases h
      rw [List.length_tail]
      exact Nat.sub_le _ _
    split at h
    · cases h
      exact Nat.le_refl _
    · cases h
      exact Nat.le_refl _

/-! ### Literals -/

/-- Reads a literal behind its opening quote: its value, and the text behind its closing quote. -/
def literalBody? (text : List Char) : Option (List Nat × List Char) :=
  match text with
  | [] => none
  | c :: rest =>
      if c = '"' then some ([], rest)
      else if c = '\\' then
        match h : escapeAt? rest with
        | none => none
        | some (front, more) =>
            have : more.length < rest.length := length_lt_of_escapeAt? h
            (literalBody? more).map fun (back, tail) => (front ++ back, tail)
      else if c = '\n' || c = '\r' then none
      else (literalBody? rest).map fun (back, tail) => (charUnits c ++ back, tail)
termination_by text.length

/-- Reads the literal at the beginning of a text. -/
def stringToken? : List Char → Option (List Nat × List Char)
  | '"' :: rest => literalBody? rest
  | _ => none

theorem literalBody?_quote (rest : List Char) : literalBody? ('"' :: rest) = some ([], rest) := by
  rw [literalBody?]
  rfl

theorem literalBody?_of_escapeAt? {text more : List Char} {front : List Nat}
    (h : escapeAt? text = some (front, more)) :
    literalBody? ('\\' :: text) =
      (literalBody? more).map fun (back, tail) => (front ++ back, tail) := by
  rw [literalBody?]
  simp only [show ('\\' : Char) ≠ '"' by decide, if_false, if_true]
  split
  · rename_i hnone
    cases hnone.symm.trans h
  · rename_i heq
    cases heq.symm.trans h
    rfl

theorem literalBody?_plain {c : Char} (hquote : c ≠ '"') (hslash : c ≠ '\\')
    (hcontrol : isControl c = false) (rest : List Char) :
    literalBody? (c :: rest) =
      (literalBody? rest).map fun (back, tail) => (charUnits c ++ back, tail) := by
  have hnewline : c ≠ '\n' := by
    rintro rfl
    exact absurd hcontrol (by decide)
  have hreturn : c ≠ '\r' := by
    rintro rfl
    exact absurd hcontrol (by decide)
  rw [literalBody?]
  simp [hquote, hslash, hnewline, hreturn]

/-! ### What is quoted -/

theorem readHex?_hex4 {n : Nat} (hn : n < 160) :
    readHex? ['0', '0', hexDigit (n / 16 % 16), hexDigit (n % 16)] = some n := by
  revert n
  decide +kernel

/-- A control character has a code of two digits, with two zeros in front. -/
theorem escapeAt?_hex4 {c : Char} (hc : isControl c = true) (rest : List Char) :
    escapeAt? ('u' :: hex4 c.toNat ++ rest) = some (charUnits c, rest) := by
  have hlt := lt_of_isControl hc
  have hunits : charUnits c = [c.toNat] := by
    unfold charUnits
    rw [if_pos (by omega)]
  have hdigits : hex4 c.toNat =
      ['0', '0', hexDigit (c.toNat / 16 % 16), hexDigit (c.toNat % 16)] := by
    have hhigh : c.toNat / 4096 % 16 = 0 ∧ c.toNat / 256 % 16 = 0 := by omega
    rw [hex4, hhigh.1, hhigh.2]
    rfl
  rw [hdigits, hunits]
  simp [escapeAt?, unicodeEscapeAt?, readHex?_hex4 hlt]

/-- A character that is written inside a literal is read as its code units. -/
theorem literalBody?_escapeChar (c : Char) (rest : List Char) :
    literalBody? (escapeChar c ++ rest) =
      (literalBody? rest).map fun (back, tail) => (charUnits c ++ back, tail) := by
  unfold escapeChar
  by_cases hslash : c = '\\'
  · subst hslash
    exact literalBody?_of_escapeAt? rfl
  by_cases hquote : c = '"'
  · subst hquote
    exact literalBody?_of_escapeAt? rfl
  by_cases hnewline : c = '\n'
  · subst hnewline
    exact literalBody?_of_escapeAt? rfl
  by_cases hreturn : c = '\r'
  · subst hreturn
    exact literalBody?_of_escapeAt? rfl
  by_cases htab : c = '\t'
  · subst htab
    exact literalBody?_of_escapeAt? rfl
  rw [if_neg hslash, if_neg hquote, if_neg hnewline, if_neg hreturn, if_neg htab]
  cases hcontrol : isControl c with
  | true => exact literalBody?_of_escapeAt? (escapeAt?_hex4 hcontrol rest)
  | false => exact literalBody?_plain hquote hslash hcontrol rest

theorem literalBody?_escape (text rest : List Char) :
    literalBody? (text.flatMap escapeChar ++ '"' :: rest) = some (units text, rest) := by
  induction text with
  | nil => exact literalBody?_quote rest
  | cons c more ih =>
    rw [List.flatMap_cons, List.append_assoc, literalBody?_escapeChar, ih]
    rfl

/-- A quoted text is one literal with the code units of the text, and ends where it ends. -/
theorem stringToken?_quote (s : String) (rest : List Char) :
    stringToken? ((quote s).toList ++ rest) = some (units s.toList, rest) := by
  rw [quote_toList, List.cons_append, List.append_assoc]
  exact literalBody?_escape s.toList rest

theorem isControl_of_mem_escapeChar {c d : Char} (hd : d ∈ escapeChar c) :
    isControl d = false := by
  have hdigit : ∀ n, isControl (hexDigit (n % 16)) = false := by
    have hall : ∀ k < 16, isControl (hexDigit k) = false := by decide
    exact fun n => hall _ (Nat.mod_lt n (by decide))
  have hpair : ∀ e : Char, isControl e = false → ∀ d ∈ ['\\', e], isControl d = false := by
    intro e he d hd
    simp only [List.mem_cons, List.not_mem_nil, or_false] at hd
    rcases hd with rfl | rfl
    · decide
    · exact he
  unfold escapeChar at hd
  split at hd
  · exact hpair '\\' (by decide) d hd
  split at hd
  · exact hpair '"' (by decide) d hd
  split at hd
  · exact hpair 'n' (by decide) d hd
  split at hd
  · exact hpair 'r' (by decide) d hd
  split at hd
  · exact hpair 't' (by decide) d hd
  split at hd
  · simp only [hex4, List.mem_cons, List.not_mem_nil, or_false] at hd
    rcases hd with rfl | rfl | rfl | rfl | rfl | rfl
    · decide
    · decide
    all_goals exact hdigit _
  · rename_i hcontrol
    rw [List.mem_singleton.mp hd]
    exact Bool.eq_false_iff.mpr hcontrol

/-- There is no control character in a quoted text, line breaks included. -/
theorem isControl_of_mem_quote {s : String} {c : Char} (hc : c ∈ (quote s).toList) :
    isControl c = false := by
  rw [quote_toList] at hc
  rcases List.mem_cons.mp hc with rfl | hrest
  · decide
  rcases List.mem_append.mp hrest with hescaped | hend
  · obtain ⟨d, -, hd⟩ := List.mem_flatMap.mp hescaped
    exact isControl_of_mem_escapeChar hd
  · rw [List.mem_singleton.mp hend]
    decide

/-- Texts are the same if the same is read for them. -/
theorem eq_of_read_eq {s t : String} {rest more : List Char}
    (h : some (units s.toList, rest) = some (units t.toList, more)) : s = t := by
  simp only [Option.some.injEq, Prod.mk.injEq] at h
  exact String.toList_injective (units_injective h.1)

theorem quote_injective : Function.Injective quote := by
  intro s t h
  exact eq_of_read_eq ((stringToken?_quote s []).symm.trans (h ▸ stringToken?_quote t []))

end OpenApiTypings.Text
