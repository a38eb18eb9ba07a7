import OpenApiTypings.Proofs.Number.Value
import OpenApiTypings.Proofs.Number.Whole
import OpenApiTypings.Proofs.Text.Bracket
import OpenApiTypings.Proofs.Text.StringValue

/-!
# Names of properties

A property of an object type is written as an identifier, as a string literal or as a number, and
in each case it has a name, which is a sequence of code units.  An identifier is its own name, a
literal gives its value, and a number gives the text of the floating-point number nearest to it.
A number with a zero in front of it is no key at all.

`propertyKey` writes every name such that it is read back, bare just where that is an identifier.
-/

namespace OpenApiTypings.Text

/-! ### Keys -/

/-- A bare key ends in front of the text: it goes on neither with characters of identifiers, which
may be escaped or beyond ASCII, nor with a point. -/
def endsBare : List Char → Bool
  | [] => true
  | c :: _ => c.toNat < 0x80 && !isIdentPart c && c ≠ '\\' && c ≠ '.'

/-- Reads a number as a key: its name, unless a zero stands in front of other digits. -/
def numeral? (digits : List Char) : Option (List Nat) :=
  if digits.head? = some '0' && digits ≠ ['0'] then none
  else some (units (numeralName (Status.digitsValue digits)).toList)

/-- Digits are a key if they are those that their value is written with. -/
theorem numeral?_eq {digits : List Char} (hne : digits ≠ [])
    (hdigits : ∀ c ∈ digits, c.isDigit = true) :
    numeral? digits = if digits = Nat.toDigits 10 (Status.digitsValue digits) then
      some (units (numeralName (Status.digitsValue digits)).toList) else none := by
  have hzeros : (digits.head? = some '0' ∧ digits ≠ ['0']) ↔
      digits ≠ Nat.toDigits 10 (Status.digitsValue digits) := by
    constructor
    · rintro ⟨hhead, hother⟩ hsame
      by_cases hvalue : Status.digitsValue digits = 0
      · rw [hvalue, Nat.toDigits_zero] at hsame
        exact hother hsame
      · rw [hsame] at hhead
        exact head?_toDigits hvalue hhead
    · intro hother
      obtain ⟨c, rest, rfl⟩ := List.exists_cons_of_ne_nil hne
      by_cases hc : c = '0'
      · subst hc
        refine ⟨rfl, fun hsame => hother ?_⟩
        rw [hsame]
        rfl
      · exact absurd (toDigits_digitsValue hdigits hc).symm hother
  unfold numeral?
  by_cases hsame : digits = Nat.toDigits 10 (Status.digitsValue digits)
  · have hplain := mt hzeros.mp (not_not_intro hsame)
    simp [hplain, ← hsame]
  · have hzero := hzeros.mpr hsame
    simp [hzero, hsame]

/-- Reads the key at the beginning of a text: the name that it stands for, and the text behind
it.  Of the keys without quotes it reads identifiers of ASCII and numbers of decimal digits. -/
def propertyName? : List Char → Option (List Nat × List Char)
  | [] => none
  | c :: text =>
      if c = '"' then literalBody? text
      else if isIdentStart c then
        let rest := text.dropWhile isIdentPart
        if endsBare rest then some (units (c :: text.takeWhile isIdentPart), rest) else none
      else if c.isDigit then
        let rest := text.dropWhile Char.isDigit
        if endsBare rest then
          (numeral? (c :: text.takeWhile Char.isDigit)).map fun name => (name, rest)
        else none
      else none

theorem propertyName?_quote (s : String) (rest : List Char) :
    propertyName? ((quote s).toList ++ rest) = some (units s.toList, rest) := by
  have htoken := stringToken?_quote s rest
  rw [quote_toList, List.cons_append] at htoken ⊢
  exact htoken

section Bare

variable {c : Char} {text rest : List Char}

/-- A bare key is cut off where the text behind it begins. -/
theorem cut_of_endsBare {p : Char → Bool} (hp : ∀ d, p d = true → isIdentPart d = true)
    (htext : ∀ d ∈ text, p d = true) (hrest : endsBare rest = true) :
    (text ++ rest).takeWhile p = text ∧ (text ++ rest).dropWhile p = rest := by
  have hstop : rest.takeWhile p = [] ∧ rest.dropWhile p = rest := by
    cases rest with
    | nil => exact ⟨rfl, rfl⟩
    | cons d more =>
      have hd : p d = false := by
        rw [Bool.eq_false_iff]
        intro htrue
        simp [endsBare, hp d htrue] at hrest
      simp [hd]
  rw [List.takeWhile_append_of_pos htext, List.dropWhile_append_of_pos htext, hstop.1, hstop.2,
    List.append_nil]
  exact ⟨rfl, rfl⟩

theorem propertyName?_identifier (hc : isIdentStart c = true)
    (htext : ∀ d ∈ text, isIdentPart d = true) (hrest : endsBare rest = true) :
    propertyName? (c :: text ++ rest) = some (units (c :: text), rest) := by
  obtain ⟨htake, hdrop⟩ := cut_of_endsBare (fun _ => id) htext hrest
  have hquote : c ≠ '"' := by
    rintro rfl
    exact absurd hc (by decide)
  simp [propertyName?, hquote, hc, htake, hdrop, hrest]

theorem propertyName?_digits (hc : c.isDigit = true) (htext : ∀ d ∈ text, d.isDigit = true)
    (hrest : endsBare rest = true) :
    propertyName? (c :: text ++ rest) = (numeral? (c :: text)).map fun name => (name, rest) := by
  have hpart : ∀ d : Char, d.isDigit = true → isIdentPart d = true := by
    intro d hd
    simp [isIdentPart, Char.isAlphanum, hd]
  obtain ⟨htake, hdrop⟩ := cut_of_endsBare hpart htext hrest
  have hquote : c ≠ '"' := by
    rintro rfl
    exact absurd hc (by decide)
  have hstart : isIdentStart c = false :=
    forall_isIdentPart (P := fun c => c.isDigit = true → isIdentStart c = false)
      (by decide +kernel) (hpart c hc) hc
  simp [propertyName?, hquote, hc, hstart, htake, hdrop, hrest]

end Bare

/-! ### Names that are written bare -/

/-- A letter of ASCII, `_` or `$`, and then such characters and digits. -/
def IsBareName (name : String) : Prop :=
  ∃ first rest, name.toList = first :: rest ∧
    ('A' ≤ first ∧ first ≤ 'Z' ∨ 'a' ≤ first ∧ first ≤ 'z' ∨ first = '_' ∨ first = '$') ∧
    ∀ c ∈ rest, 'A' ≤ c ∧ c ≤ 'Z' ∨ 'a' ≤ c ∧ c ≤ 'z' ∨ '0' ≤ c ∧ c ≤ '9' ∨ c = '_' ∨ c = '$'

theorem isAlpha_iff {c : Char} :
    c.isAlpha = true ↔ 'A' ≤ c ∧ c ≤ 'Z' ∨ 'a' ≤ c ∧ c ≤ 'z' := by
  rw [← isUpper_iff, ← isLower_iff]
  exact Bool.or_eq_true_iff

theorem isIdentStart_iff {c : Char} : isIdentStart c = true ↔
    'A' ≤ c ∧ c ≤ 'Z' ∨ 'a' ≤ c ∧ c ≤ 'z' ∨ c = '_' ∨ c = '$' := by
  simp [isIdentStart, isAlpha_iff, or_assoc]

theorem isIdentPart_iff {c : Char} : isIdentPart c = true ↔
    'A' ≤ c ∧ c ≤ 'Z' ∨ 'a' ≤ c ∧ c ≤ 'z' ∨ '0' ≤ c ∧ c ≤ '9' ∨ c = '_' ∨ c = '$' := by
  simp [isIdentPart, Char.isAlphanum, isAlpha_iff, isDigit_iff, or_assoc]

theorem isIdentifier_iff {name : String} : isIdentifier name = true ↔ IsBareName name := by
  unfold isIdentifier IsBareName
  cases name.toList with
  | nil => simp
  | cons first rest => simp [isIdentStart_iff, isIdentPart_iff]

/-- A key is read as the name that was written, in front of a colon or a question mark. -/
theorem propertyName?_propertyKey (s : String) {rest : List Char} (hrest : endsBare rest = true) :
    propertyName? ((propertyKey s).toList ++ rest) = some (units s.toList, rest) := by
  unfold propertyKey
  cases hident : isIdentifier s with
  | false => exact propertyName?_quote s rest
  | true =>
    obtain ⟨first, text, hlist, hfirst, htext⟩ := isIdentifier_iff.mp hident
    simp only [if_true, hlist]
    exact propertyName?_identifier (isIdentStart_iff.mpr hfirst)
      (fun d hd => isIdentPart_iff.mpr (htext d hd)) hrest

theorem propertyKey_injective : Function.Injective propertyKey := by
  intro s t h
  have hend : endsBare [] = true := rfl
  have hread := propertyName?_propertyKey t hend
  rw [← h, propertyName?_propertyKey s hend] at hread
  exact eq_of_read_eq hread

/-- Quoting loses nothing and is safe.  A quoted text is one literal without control characters,
whose value is the text; a key is the text itself if that is a bare name and the quoted text
otherwise, and names the property by the text. -/
theorem quoting_lossless :
    (∀ s : String, (∀ c ∈ (quote s).toList, isControl c = false) ∧
      ∀ rest, stringToken? ((quote s).toList ++ rest) = some (units s.toList, rest)) ∧
    (∀ s : String, IsBareName s ∧ propertyKey s = s ∨ ¬IsBareName s ∧ propertyKey s = quote s) ∧
    (∀ (s : String) (rest : List Char),
      propertyName? ((propertyKey s).toList ++ ':' :: rest) =
          some (units s.toList, ':' :: rest) ∧
        propertyName? ((propertyKey s).toList ++ '?' :: rest) =
          some (units s.toList, '?' :: rest)) ∧
    Function.Injective quote ∧ Function.Injective propertyKey ∧
      Function.Injective fun s : String => units s.toList := by
  refine ⟨fun s => ⟨fun c => isControl_of_mem_quote, stringToken?_quote s⟩, fun s => ?_,
    fun s rest => ⟨propertyName?_propertyKey s rfl, propertyName?_propertyKey s rfl⟩,
    quote_injective, propertyKey_injective,
    fun s t h => String.toList_injective (units_injective h)⟩
  rw [← isIdentifier_iff, propertyKey]
  cases isIdentifier s with
  | true => exact Or.inl ⟨rfl, rfl⟩
  | false => exact Or.inr ⟨Bool.false_ne_true, rfl⟩

end OpenApiTypings.Text
