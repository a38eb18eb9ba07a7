import Mathlib.Tactic.MkIffOfInductiveProp
import OpenApiTypings.Proofs.Lists
import OpenApiTypings.Proofs.Text.Words

/-!
# Words by the bytes of a token

The words of a token can be told from its bytes.  One loop runs over them, with the position where
the word under way began, and takes the stretch up to every byte in front of which a word ends.  A
stretch can be taken only where both of its ends are in the text, and inside of no character.

All stretches of the loop can be taken, whatever the text is, and they are the words in order.  Each
byte of a character belongs to the same classes of characters as the character itself
(`class_of_mem_encoding`).  So the loop stops between two characters just where `splitToken` cuts,
and never inside of one.
-/

namespace OpenApiTypings.Text

/-! ### Stretches of a text -/

/-- A stretch of a text, from its first byte up to the byte behind it. -/
structure Span where
  start : Nat
  stop : Nat
  deriving DecidableEq, Repr

namespace Span

/-- Both ends are in the text and inside of no character, and they are in order. -/
@[mk_iff]
structure LiesIn (span : Span) (text : String) : Prop where
  start_le_stop : span.start ≤ span.stop
  start_isValid : (⟨span.start⟩ : String.Pos.Raw).IsValid text
  stop_isValid : (⟨span.stop⟩ : String.Pos.Raw).IsValid text

instance (span : Span) (text : String) : Decidable (span.LiesIn text) :=
  decidable_of_iff _ (liesIn_iff span text).symm

/-- The characters of the stretch, if it lies in the text. -/
def slice? (span : Span) (text : String) : Option String :=
  if h : span.LiesIn text then
    some (String.extract (text.pos ⟨span.start⟩ h.start_isValid)
      (text.pos ⟨span.stop⟩ h.stop_isValid))
  else none

theorem liesIn_of_slice? {span : Span} {text part : String}
    (h : span.slice? text = some part) : span.LiesIn text := by
  unfold slice? at h
  split at h
  · assumption
  · cases h

theorem liesIn_append (front part back : String) :
    LiesIn ⟨front.utf8ByteSize, front.utf8ByteSize + part.utf8ByteSize⟩
      (front ++ (part ++ back)) where
  start_le_stop := Nat.le_add_right _ _
  start_isValid := String.Pos.Raw.isValid_iff_exists_append.mpr ⟨front, part ++ back, rfl, rfl⟩
  stop_isValid := by
    refine String.Pos.Raw.isValid_iff_exists_append.mpr ⟨front ++ part, back, ?_, ?_⟩
    · rw [String.append_assoc]
    · simp [String.Pos.Raw.ext_iff]

theorem slice?_append (front part back : String) :
    slice? ⟨front.utf8ByteSize, front.utf8ByteSize + part.utf8ByteSize⟩
      (front ++ (part ++ back)) = some part := by
  have hempty : front.toByteArray.extract front.utf8ByteSize
      (front.utf8ByteSize + part.utf8ByteSize) = ByteArray.empty :=
    ByteArray.extract_eq_empty_iff.mpr (Nat.min_le_right _ _)
  rw [slice?, dif_pos (liesIn_append front part back), Option.some_inj, ← String.toByteArray_inj,
    String.toByteArray_extract]
  simp only [String.offset_pos, String.toByteArray_append]
  rw [ByteArray.extract_append, hempty, ByteArray.empty_append, String.size_toByteArray,
    Nat.sub_self, Nat.add_sub_cancel_left,
    ByteArray.extract_append_eq_left String.size_toByteArray.symm]

example : slice? ⟨0, 2⟩ "\u00e92" = some "\u00e9" ∧ slice? ⟨0, 1⟩ "\u00e92" = none := by
  decide +kernel

end Span

/-! ### Classes of bytes -/

theorem toNat_ofUInt8 (b : UInt8) : (Char.ofUInt8 b).toNat = b.toNat :=
  UInt8.toNat_toUInt32 b

theorem ofUInt8_of_mem_encoding {c : Char} (hc : c.toNat < 128) {b : UInt8}
    (hb : b ∈ String.utf8EncodeChar c) : Char.ofUInt8 b = c := by
  have hval : c.toNat = c.val.toNat := rfl
  rw [hval] at hc
  rw [String.utf8EncodeChar, if_pos (Nat.le_of_lt_succ hc), List.mem_singleton] at hb
  apply Char.toNat_inj.mp
  rw [toNat_ofUInt8, hb, UInt8.toNat_ofNat', hval]
  omega

theorem le_toNat_of_mem_encoding {c : Char} (hc : 128 ≤ c.toNat) :
    ∀ b ∈ String.utf8EncodeChar c, 128 ≤ b.toNat := by
  have hnot : ¬ c.val.toNat ≤ 127 := Nat.not_le.mpr hc
  rw [String.utf8EncodeChar, if_neg hnot]
  simp only [apply_ite (fun bytes => ∀ b ∈ bytes, 128 ≤ UInt8.toNat b), List.forall_mem_cons,
    List.not_mem_nil, false_imp_iff, implies_true, and_true, UInt8.toNat_ofNat']
  split
  · omega
  split
  · omega
  · omega

theorem classes_of_le {c : Char} (h : 128 ≤ c.toNat) :
    c.isLower = false ∧ c.isUpper = false ∧ c.isDigit = false := by
  have hpart : isIdentPart c = false := by
    apply Bool.eq_false_iff.mpr
    intro hpart
    exact absurd (toNat_lt_of_isIdentPart hpart) (Nat.not_lt.mpr h)
  have halpha : c.isAlpha = (c.isUpper || c.isLower) := rfl
  simp only [isIdentPart, Char.isAlphanum, halpha, Bool.or_eq_false_iff] at hpart
  exact ⟨hpart.1.1.1.2, hpart.1.1.1.1, hpart.1.1.2⟩

theorem class_of_mem_encoding {c : Char} {b : UInt8} (hb : b ∈ String.utf8EncodeChar c) :
    (Char.ofUInt8 b).isLower = c.isLower ∧ (Char.ofUInt8 b).isUpper = c.isUpper ∧
      (Char.ofUInt8 b).isDigit = c.isDigit := by
  by_cases hc : c.toNat < 128
  · rw [ofUInt8_of_mem_encoding hc hb]
    exact ⟨rfl, rfl, rfl⟩
  · have hbyte := le_toNat_of_mem_encoding (Nat.not_lt.mp hc) b hb
    rw [← toNat_ofUInt8] at hbyte
    simp only [classes_of_le hbyte, classes_of_le (Nat.not_lt.mp hc), and_self]

/-! ### The loop over the bytes -/

/-- A word ends in front of the byte at the position. -/
def endsAt (text : String) (i : Nat) (h : i < text.utf8ByteSize) : Bool :=
  isWordBoundary
    (Char.ofUInt8 (text.getUTF8Byte ⟨i - 1⟩ (Nat.lt_of_le_of_lt (Nat.sub_le i 1) h)))
    (Char.ofUInt8 (text.getUTF8Byte ⟨i⟩ h))

/-- The stretches from position `i` on, where the word under way began at `start`. -/
def spansFrom (text : String) (start i : Nat) : List Span :=
  if h : i < text.utf8ByteSize then
    if endsAt text i h then ⟨start, i⟩ :: spansFrom text i (i + 1)
    else spansFrom text start (i + 1)
  else [⟨start, text.utf8ByteSize⟩]
termination_by text.utf8ByteSize - i

/-- The stretches of the words.  Nothing can end in front of the first byte. -/
def wordSpans (text : String) : List Span :=
  spansFrom text 0 1

variable {text front back : String} {c d : Char} {i : Nat}

theorem getUTF8Byte_mem_encoding (htext : text = front ++ (String.singleton c ++ back))
    (hfrom : front.utf8ByteSize ≤ i) (hto : i < front.utf8ByteSize + c.utf8Size)
    (h : i < text.utf8ByteSize) : text.getUTF8Byte ⟨i⟩ h ∈ String.utf8EncodeChar c := by
  subst htext
  obtain ⟨k, rfl⟩ := Nat.exists_eq_add_of_le hfrom
  have hk : k < [c].utf8Encode.size := by
    rw [List.utf8Encode_singleton, List.size_toByteArray, String.length_utf8EncodeChar]
    omega
  simp only [String.getUTF8Byte, String.toByteArray_append, String.toByteArray_singleton]
  rw [ByteArray.getElem_append_right (by simp), ByteArray.getElem_append_left (by simpa using hk)]
  simp [List.utf8Encode_singleton]

theorem endsAt_eq {h : i < text.utf8ByteSize}
    (hc : text.getUTF8Byte ⟨i - 1⟩ (Nat.lt_of_le_of_lt (Nat.sub_le i 1) h) ∈
      String.utf8EncodeChar c)
    (hd : text.getUTF8Byte ⟨i⟩ h ∈ String.utf8EncodeChar d) :
    endsAt text i h = isWordBoundary c d := by
  obtain ⟨hlower, -, hdigit⟩ := class_of_mem_encoding hc
  obtain ⟨-, hupper, hdigit'⟩ := class_of_mem_encoding hd
  rw [endsAt, isWordBoundary, isWordBoundary, hlower, hupper, hdigit, hdigit']

theorem endsAt_between
    (htext : text = front ++ (String.singleton c ++ (String.singleton d ++ back)))
    (hi : i = front.utf8ByteSize + c.utf8Size) (h : i < text.utf8ByteSize) :
    endsAt text i h = isWordBoundary c d := by
  have hnext : text = front ++ String.singleton c ++ (String.singleton d ++ back) := by
    rw [htext, String.append_assoc]
  have hc := c.utf8Size_pos
  have hd := d.utf8Size_pos
  apply endsAt_eq (getUTF8Byte_mem_encoding htext (by omega) (by omega) _)
  apply getUTF8Byte_mem_encoding hnext
  · simp [hi]
  · simp [hi, hd]

/-- The loop runs through a character without a stop. -/
theorem spansFrom_inside (start : Nat) (htext : text = front ++ (String.singleton c ++ back))
    (hfrom : front.utf8ByteSize < i) (hto : i ≤ front.utf8ByteSize + c.utf8Size) :
    spansFrom text start i = spansFrom text start (front.utf8ByteSize + c.utf8Size) := by
  induction hleft : front.utf8ByteSize + c.utf8Size - i generalizing i with
  | zero => rw [Nat.le_antisymm hto (Nat.le_of_sub_eq_zero hleft)]
  | succ left ih =>
    have hi : i < text.utf8ByteSize := by
      rw [htext, String.utf8ByteSize_append, String.utf8ByteSize_append,
        String.utf8ByteSize_singleton]
      omega
    have hends : endsAt text i hi = isWordBoundary c c :=
      endsAt_eq (getUTF8Byte_mem_encoding htext (by omega) (by omega) _)
        (getUTF8Byte_mem_encoding htext (by omega) (by omega) _)
    have hnot : ¬ isWordBoundary c c = true := by
      rw [isWordBoundary_iff]
      exact not_wordEnds_self c
    rw [spansFrom, dif_pos hi, hends, if_neg hnot]
    exact ih (by omega) (by omega) (by omega)

/-- The loop goes from the end of a character to the end of the next one. -/
theorem spansFrom_next (start : Nat)
    (htext : text = front ++ (String.singleton c ++ (String.singleton d ++ back))) :
    spansFrom text start (front.utf8ByteSize + c.utf8Size) =
      if isWordBoundary c d then
        ⟨start, front.utf8ByteSize + c.utf8Size⟩ ::
          spansFrom text (front.utf8ByteSize + c.utf8Size)
            (front.utf8ByteSize + c.utf8Size + d.utf8Size)
      else spansFrom text start (front.utf8ByteSize + c.utf8Size + d.utf8Size) := by
  have hd := d.utf8Size_pos
  have hi : front.utf8ByteSize + c.utf8Size < text.utf8ByteSize := by
    rw [htext]
    simp
    omega
  have hfront : (front ++ String.singleton c).utf8ByteSize =
      front.utf8ByteSize + c.utf8Size := by
    rw [String.utf8ByteSize_append, String.utf8ByteSize_singleton]
  have hinside : ∀ start, spansFrom text start (front.utf8ByteSize + c.utf8Size + 1) =
      spansFrom text start (front.utf8ByteSize + c.utf8Size + d.utf8Size) := by
    intro start
    rw [← String.append_assoc] at htext
    rw [← hfront]
    exact spansFrom_inside start htext (by omega) (by omega)
  rw [spansFrom, dif_pos hi, endsAt_between htext rfl, hinside, hinside]

/-! ### Stretches of given words -/

/-- The stretches of words that follow each other from a position on. -/
def spansOf (start : Nat) : List (List Char) → List Span
  | [] => []
  | word :: more =>
      ⟨start, start + (String.ofList word).utf8ByteSize⟩ ::
        spansOf (start + (String.ofList word).utf8ByteSize) more

theorem forall₂_slice?_spansOf (front : String) (words : List (List Char)) :
    List.Forall₂ (fun span word => span.slice? (front ++ String.ofList words.flatten) = some word)
      (spansOf front.utf8ByteSize words) (words.map String.ofList) := by
  induction words generalizing front with
  | nil => exact List.Forall₂.nil
  | cons word more ih =>
    have hmore := ih (front ++ String.ofList word)
    rw [String.utf8ByteSize_append, String.append_assoc] at hmore
    rw [List.flatten_cons, String.ofList_append]
    exact List.Forall₂.cons (Span.slice?_append front _ _) hmore

theorem utf8ByteSize_ofList_cons (c : Char) (rest : List Char) :
    (String.ofList (c :: rest)).utf8ByteSize =
      c.utf8Size + (String.ofList rest).utf8ByteSize := by
  rw [String.ofList_cons, String.utf8ByteSize_append, String.utf8ByteSize_singleton]

/-- Behind the first character of a token, the loop has the rest of the first word still to go. -/
theorem spansFrom_eq (start : Nat) {rest tail : List Char} {more : List (List Char)}
    (hwords : splitToken (c :: rest) = (c :: tail) :: more)
    (htext : text = front ++ String.ofList (c :: rest)) :
    spansFrom text start (front.utf8ByteSize + c.utf8Size) =
      ⟨start, front.utf8ByteSize + (String.ofList (c :: tail)).utf8ByteSize⟩ ::
        spansOf (front.utf8ByteSize + (String.ofList (c :: tail)).utf8ByteSize) more := by
  -- The induction follows `splitToken`; what is in front of the character, and where the word
  -- under way began, changes from one character to the next.
  induction rest generalizing front c start tail more with
  | nil =>
    have hsize : text.utf8ByteSize = front.utf8ByteSize + c.utf8Size := by
      rw [htext, String.utf8ByteSize_append, utf8ByteSize_ofList_cons]
      simp
    cases hwords
    rw [spansFrom, dif_neg (by omega), hsize, utf8ByteSize_ofList_cons]
    simp [spansOf]
  | cons d rest ih =>
    obtain ⟨others, last, hrest⟩ := exists_splitToken_cons d rest
    have hnext : text = front ++ String.singleton c ++ String.ofList (d :: rest) := by
      rw [htext, String.ofList_cons, String.append_assoc]
    have hbehind := fun start => ih start hrest hnext
    simp only [String.utf8ByteSize_append, String.utf8ByteSize_singleton] at hbehind
    rw [String.ofList_cons, String.ofList_cons] at htext
    rw [splitToken_cons_cons c hrest] at hwords
    rw [spansFrom_next start htext, hbehind, hbehind]
    split at hwords
    · rename_i hends
      cases hwords
      rw [if_pos hends, spansOf, utf8ByteSize_ofList_cons]
      simp
    · rename_i hends
      cases hwords
      rw [if_neg hends, utf8ByteSize_ofList_cons c, Nat.add_assoc]

theorem wordSpans_eq (text : String) : wordSpans text = spansOf 0 (splitToken text.toList) := by
  cases hchars : text.toList with
  | nil =>
    obtain rfl : text = "" := by simpa using hchars
    decide +kernel
  | cons c rest =>
    obtain ⟨tail, more, hwords⟩ := exists_splitToken_cons c rest
    have htext : text = "" ++ String.ofList (c :: rest) := by
      rw [← hchars, String.ofList_toList, String.empty_append]
    have hspans := spansFrom_eq 0 hwords htext
    have hc := c.utf8Size_pos
    rw [String.ofList_cons] at htext
    rw [← spansFrom_inside (i := 1) 0 htext (by simp) (by simp; omega)] at hspans
    rw [wordSpans, hspans, hwords, spansOf, String.utf8ByteSize_empty, Nat.zero_add]

theorem forall₂_slice?_wordSpans (text : String) :
    List.Forall₂ (fun span word => span.slice? text = some word) (wordSpans text)
      ((splitToken text.toList).map String.ofList) := by
  have hslices := forall₂_slice?_spansOf "" (splitToken text.toList)
  rw [flatten_splitToken, String.ofList_toList, String.empty_append] at hslices
  rw [wordSpans_eq]
  exact hslices

theorem liesIn_of_mem_wordSpans {span : Span} (hspan : span ∈ wordSpans text) :
    span.LiesIn text := by
  obtain ⟨word, -, hslice⟩ := exists_right_of_mem (forall₂_slice?_wordSpans text) hspan
  exact Span.liesIn_of_slice? hslice

example : wordSpans "\u00e92" = [⟨0, 2⟩, ⟨2, 3⟩] := by
  decide +kernel

/-- A token is cut just where words end, and nothing of it is lost.  In every text, the stretches
that the loop over its bytes takes lie in the text, and they are the words.  The tokens of a hint
that are cut are not empty and have letters and digits alone, and so has the name made of them. -/
theorem splitToken_exact :
    (∀ token : List Char, token ≠ [] →
      ∀ words, splitToken token = words ↔ FallsInto token words) ∧
    (∀ text : String, (∀ span ∈ wordSpans text, span.LiesIn text) ∧
      (wordSpans text).mapM (·.slice? text) =
        some ((splitToken text.toList).map String.ofList)) ∧
    ∀ hint : String,
      (∀ token ∈ tokens hint.toList, isStructural token = false →
        token ≠ [] ∧ ∀ c ∈ token, c.isAlphanum = true) ∧
      ∀ c ∈ (pascalCase hint).toList, c.isAlphanum = true := by
  refine ⟨?_, ?_, ?_⟩
  · intro token htoken words
    exact splitToken_eq_iff htoken
  · intro text
    exact ⟨fun span hspan => liesIn_of_mem_wordSpans hspan,
      mapM_eq_some_of_forall₂ (forall₂_slice?_wordSpans text)⟩
  · intro hint
    constructor
    · intro token htoken hcut
      exact ⟨ne_nil_of_not_isStructural hcut, fun c hc => isAlphanum_of_mem_tokens htoken hc⟩
    · intro c hc
      exact isAlphanum_of_mem_pascalCase hc

/-- Capitals in a row, a capital behind a small letter, and a digit between letters. -/
theorem splitToken_exact_status :
    let token := "HTTPStatusV2beta".toList
    let words := ["HTTPStatus".toList, "V".toList, "2".toList, "beta".toList]
    let spans : List Span := [⟨0, 10⟩, ⟨10, 11⟩, ⟨11, 12⟩, ⟨12, 16⟩]
    token ≠ [] ∧ FallsInto token words ∧
    wordSpans "HTTPStatusV2beta" = spans ∧ (∀ span ∈ spans, span.LiesIn "HTTPStatusV2beta") ∧
    token ∈ tokens "get_OneOf2_HTTPStatusV2beta".toList ∧ isStructural token = false ∧
      (∀ c ∈ token, c.isAlphanum = true) ∧
    pascalCase "get_OneOf2_HTTPStatusV2beta" = "GetHttpstatusV2Beta" ∧
      ∀ c ∈ "GetHttpstatusV2Beta".toList, c.isAlphanum = true := by
  intro token words spans
  obtain ⟨hcut, hslices, hhint⟩ := splitToken_exact
  obtain ⟨htokens, hname⟩ := hhint "get_OneOf2_HTTPStatusV2beta"
  have hne : token ≠ [] := by decide
  have hspans : wordSpans "HTTPStatusV2beta" = spans := by decide +kernel
  have htoken : token ∈ tokens "get_OneOf2_HTTPStatusV2beta".toList := by decide +kernel
  have hplain : isStructural token = false := by decide +kernel
  have hpascal : pascalCase "get_OneOf2_HTTPStatusV2beta" = "GetHttpstatusV2Beta" := by
    decide +kernel
  refine ⟨hne, (hcut token hne words).mp (by decide +kernel), hspans, ?_, htoken, hplain,
    (htokens token htoken hplain).2, hpascal, ?_⟩
  · rw [← hspans]
    exact (hslices "HTTPStatusV2beta").1
  · rw [← hpascal]
    exact hname

end OpenApiTypings.Text
