import OpenApiTypings.Proofs.Text.Lines
import OpenApiTypings.Proofs.Text.Quoted

/-!
# Brackets of a text

A scanner walks over a text and keeps the closing brackets that are still to come;
quoted literals, with escapes in them, and template literals are passed over.  A text is
*balanced* when the scanner ends as it began.  It is *atomic* when, besides, no `|`, no
`&` and no white space stands outside all brackets, so that nothing that is written
around the text takes a part of it for itself.

Balanced texts compose.  More brackets pending change nothing for a step (`step_frame`), so
inside a bracket a balanced text needs not be atomic (`scanBare_frame`).
-/

namespace OpenApiTypings.Text

/-! ### The scanner -/

/-- Where the scanner stands. -/
inductive Region where
  | code
  | quoted
  /-- Behind a backslash in a quoted literal. -/
  | escaped
  | template
  deriving DecidableEq

/-- The state of the scanner; `pending` has the nearest closing bracket first. -/
structure Scanner where
  region : Region
  pending : List Char
  deriving DecidableEq

/-- The bracket that closes an opening one. -/
def closingOf? (c : Char) : Option Char :=
  if c = '(' then some ')'
  else if c = '[' then some ']'
  else if c = '\x7b' then some '\x7d'
  else if c = '<' then some '>'
  else none

def isClosing (c : Char) : Bool :=
  c = ')' || c = ']' || c = '\x7d' || c = '>'

/-- A step outside literals.  A closing bracket has to be the one that is due. -/
def codeStep (pending : List Char) (c : Char) : Option Scanner :=
  if c = '"' then some ⟨.quoted, pending⟩
  else if c = '`' then some ⟨.template, pending⟩
  else
    match closingOf? c with
    | some closing => some ⟨.code, closing :: pending⟩
    | none =>
        if isClosing c then
          match pending with
          | [] => none
          | closing :: rest => if c = closing then some ⟨.code, rest⟩ else none
        else some ⟨.code, pending⟩

def step (s : Scanner) (c : Char) : Option Scanner :=
  match s.region with
  | .code => codeStep s.pending c
  | .quoted =>
      some ⟨if c = '"' then .code else if c = '\\' then .escaped else .quoted, s.pending⟩
  | .escaped => some ⟨.quoted, s.pending⟩
  | .template => some ⟨if c = '`' then .code else .template, s.pending⟩

/-- Characters that would let a neighbour rebind a part of the text. -/
def separates (c : Char) : Bool :=
  c = '|' || c = '&' || isBlank c

/-- A step that refuses a separating character outside all brackets. -/
def bareStep (s : Scanner) (c : Char) : Option Scanner :=
  if s.region = .code ∧ s.pending = [] ∧ separates c = true then none else step s c

def scan (s : Scanner) (text : List Char) : Option Scanner := text.foldlM step s

def scanBare (s : Scanner) (text : List Char) : Option Scanner := text.foldlM bareStep s

/-- Every bracket is closed, in order, and none is closed that was not opened. -/
def Balanced (text : List Char) : Prop := scan ⟨.code, []⟩ text = some ⟨.code, []⟩

/-- The text is balanced, and nothing outside its brackets separates. -/
def Atomic (text : List Char) : Prop := scanBare ⟨.code, []⟩ text = some ⟨.code, []⟩

instance (text : List Char) : Decidable (Balanced text) := inferInstanceAs (Decidable (_ = _))

instance (text : List Char) : Decidable (Atomic text) := inferInstanceAs (Decidable (_ = _))

theorem scan_cons (s : Scanner) (c : Char) (rest : List Char) :
    scan s (c :: rest) = (step s c).bind fun s' => scan s' rest := rfl

theorem scanBare_cons (s : Scanner) (c : Char) (rest : List Char) :
    scanBare s (c :: rest) = (bareStep s c).bind fun s' => scanBare s' rest := rfl

theorem scan_append (s : Scanner) (xs ys : List Char) :
    scan s (xs ++ ys) = (scan s xs).bind fun s' => scan s' ys := List.foldlM_append

theorem scanBare_append (s : Scanner) (xs ys : List Char) :
    scanBare s (xs ++ ys) = (scanBare s xs).bind fun s' => scanBare s' ys :=
  List.foldlM_append

/-! ### Pending brackets -/

theorem step_frame {r r' : Region} {p p' : List Char} {c : Char}
    (h : step ⟨r, p⟩ c = some ⟨r', p'⟩) (base : List Char) :
    step ⟨r, p ++ base⟩ c = some ⟨r', p' ++ base⟩ := by
  cases r with
  | code =>
    simp only [step, codeStep] at h ⊢
    by_cases hquote : c = '"'
    · rw [if_pos hquote] at h ⊢
      cases h
      rfl
    rw [if_neg hquote] at h ⊢
    by_cases htick : c = '`'
    · rw [if_pos htick] at h ⊢
      cases h
      rfl
    rw [if_neg htick] at h ⊢
    cases hopening : closingOf? c with
    | some closing =>
      simp only [hopening] at h
      cases h
      rfl
    | none =>
      simp only [hopening] at h
      by_cases hclosing : isClosing c = true
      · rw [if_pos hclosing] at h
        simp only [if_pos hclosing]
        cases p with
        | nil => cases h
        | cons closing rest =>
          by_cases hdue : c = closing
          · simp only [if_pos hdue] at h
            cases h
            exact if_pos hdue
          · simp only [if_neg hdue] at h
            cases h
      · rw [if_neg hclosing] at h
        cases h
        exact if_neg hclosing
  | quoted =>
    cases h
    rfl
  | escaped =>
    cases h
    rfl
  | template =>
    cases h
    rfl

/-- Inside a bracket nothing is refused. -/
theorem scanBare_frame {r r' : Region} {p p' : List Char} {text : List Char}
    (h : scan ⟨r, p⟩ text = some ⟨r', p'⟩) {base : List Char} (hbase : base ≠ []) :
    scanBare ⟨r, p ++ base⟩ text = some ⟨r', p' ++ base⟩ := by
  induction text generalizing r p with
  | nil =>
    cases h
    rfl
  | cons c rest ih =>
    rw [scan_cons] at h
    obtain ⟨⟨r'', p''⟩, hstep, hrest⟩ := Option.bind_eq_some_iff.mp h
    have hbare : bareStep ⟨r, p ++ base⟩ c = step ⟨r, p ++ base⟩ c := by
      apply if_neg
      rintro ⟨-, hempty, -⟩
      exact hbase (List.append_eq_nil_iff.mp hempty).2
    rw [scanBare_cons, hbare, step_frame hstep base]
    exact ih hrest

theorem scan_of_scanBare {s s' : Scanner} {text : List Char}
    (h : scanBare s text = some s') : scan s text = some s' := by
  induction text generalizing s with
  | nil => exact h
  | cons c rest ih =>
    rw [scanBare_cons] at h
    obtain ⟨next, hstep, hrest⟩ := Option.bind_eq_some_iff.mp h
    have hplain : step s c = some next := by
      unfold bareStep at hstep
      split at hstep
      · cases hstep
      · exact hstep
    rw [scan_cons, hplain]
    exact ih hrest

theorem Atomic.balanced {text : List Char} (h : Atomic text) : Balanced text :=
  scan_of_scanBare h

/-! ### Texts put together -/

theorem balanced_nil : Balanced [] := rfl

theorem atomic_nil : Atomic [] := rfl

theorem Balanced.append {xs ys : List Char} (hx : Balanced xs) (hy : Balanced ys) :
    Balanced (xs ++ ys) := by
  rw [Balanced, scan_append, hx]
  exact hy

theorem Atomic.append {xs ys : List Char} (hx : Atomic xs) (hy : Atomic ys) :
    Atomic (xs ++ ys) := by
  rw [Atomic, scanBare_append, hx]
  exact hy

theorem balanced_join {pieces : List String} (h : ∀ piece ∈ pieces, Balanced piece.toList) :
    Balanced (String.join pieces).toList := by
  induction pieces with
  | nil =>
    rw [String.join_nil]
    exact balanced_nil
  | cons piece rest ih =>
    rw [String.join_cons, String.toList_append]
    exact (h piece (List.mem_cons_self ..)).append
      (ih fun p hp => h p (List.mem_cons_of_mem _ hp))

theorem balanced_intercalate {separator : String} (hseparator : Balanced separator.toList)
    {pieces : List String} (h : ∀ piece ∈ pieces, Balanced piece.toList) :
    Balanced (separator.intercalate pieces).toList := by
  induction pieces with
  | nil =>
    rw [String.intercalate_nil]
    exact balanced_nil
  | cons piece rest ih =>
    have hpiece := h piece (List.mem_cons_self ..)
    have hrest := ih fun p hp => h p (List.mem_cons_of_mem _ hp)
    cases rest with
    | nil =>
      rw [String.intercalate_singleton]
      exact hpiece
    | cons second more =>
      rw [String.intercalate_cons_cons, String.toList_append, String.toList_append]
      exact (hpiece.append hseparator).append hrest

/-- A balanced text in brackets is atomic. -/
theorem Atomic.bracket {opening closing : Char} (hopening : closingOf? opening = some closing)
    {inner : List Char} (hinner : Balanced inner) :
    Atomic (opening :: (inner ++ [closing])) := by
  have hcases : (opening = '(' ∧ closing = ')') ∨ (opening = '[' ∧ closing = ']') ∨
      (opening = '\x7b' ∧ closing = '\x7d') ∨ (opening = '<' ∧ closing = '>') := by
    unfold closingOf? at hopening
    split at hopening
    · exact Or.inl ⟨by assumption, (Option.some.inj hopening).symm⟩
    split at hopening
    · exact Or.inr (Or.inl ⟨by assumption, (Option.some.inj hopening).symm⟩)
    split at hopening
    · exact Or.inr (Or.inr (Or.inl ⟨by assumption, (Option.some.inj hopening).symm⟩))
    split at hopening
    · exact Or.inr (Or.inr (Or.inr ⟨by assumption, (Option.some.inj hopening).symm⟩))
    · cases hopening
  have hopen : bareStep ⟨.code, []⟩ opening = some ⟨.code, [closing]⟩ := by
    rcases hcases with ⟨rfl, rfl⟩ | ⟨rfl, rfl⟩ | ⟨rfl, rfl⟩ | ⟨rfl, rfl⟩ <;> decide
  have hclose : bareStep ⟨.code, [closing]⟩ closing = some ⟨.code, []⟩ := by
    rcases hcases with ⟨rfl, rfl⟩ | ⟨rfl, rfl⟩ | ⟨rfl, rfl⟩ | ⟨rfl, rfl⟩ <;> decide
  have hbody : scanBare ⟨.code, [] ++ [closing]⟩ inner = some ⟨.code, [] ++ [closing]⟩ :=
    scanBare_frame hinner (by simp)
  rw [List.nil_append] at hbody
  rw [Atomic, scanBare_cons, hopen, Option.bind_some, scanBare_append, hbody,
    Option.bind_some, scanBare_cons, hclose]
  rfl

/-! ### Texts without brackets -/

/-- A character that the scanner passes over in code. -/
def isPlain (c : Char) : Bool :=
  c != '"' && c != '`' && closingOf? c = none && !isClosing c

theorem step_of_plain {c : Char} (hc : isPlain c = true) (pending : List Char) :
    step ⟨.code, pending⟩ c = some ⟨.code, pending⟩ := by
  simp only [isPlain, Bool.and_eq_true, bne_iff_ne, decide_eq_true_eq,
    Bool.not_eq_true'] at hc
  obtain ⟨⟨⟨hquote, htick⟩, hopening⟩, hclosing⟩ := hc
  simp [step, codeStep, hquote, htick, hopening, hclosing]

theorem balanced_of_plain {text : List Char} (h : ∀ c ∈ text, isPlain c = true) :
    Balanced text := by
  induction text with
  | nil => exact balanced_nil
  | cons c rest ih =>
    rw [Balanced, scan_cons, step_of_plain (h c (List.mem_cons_self ..))]
    exact ih fun c' hc' => h c' (List.mem_cons_of_mem _ hc')

/-- A character that may stand outside all brackets of an atomic text. -/
def isBare (c : Char) : Bool :=
  isPlain c && !separates c

theorem atomic_of_bare {text : List Char} (h : ∀ c ∈ text, isBare c = true) :
    Atomic text := by
  induction text with
  | nil => exact atomic_nil
  | cons c rest ih =>
    have hc := h c (List.mem_cons_self ..)
    rw [isBare, Bool.and_eq_true, Bool.not_eq_true'] at hc
    have hstep : bareStep ⟨.code, []⟩ c = some ⟨.code, []⟩ := by
      rw [bareStep, hc.2, if_neg (by simp), step_of_plain hc.1]
    rw [Atomic, scanBare_cons, hstep]
    exact ih fun c' hc' => h c' (List.mem_cons_of_mem _ hc')

theorem toNat_lt_of_isIdentPart {c : Char} (h : isIdentPart c = true) : c.toNat < 128 := by
  have hc : c.toNat = c.val.toNat := rfl
  have hlast : 'Z'.val.toNat < 128 ∧ 'z'.val.toNat < 128 ∧ '9'.val.toNat < 128 := by decide
  have hcases : ((((decide ('A'.val ≤ c.val ∧ c.val ≤ 'Z'.val) ||
      (decide ('a'.val ≤ c.val) && decide (c.val ≤ 'z'.val))) ||
      (decide ('0'.val ≤ c.val) && decide (c.val ≤ '9'.val))) ||
      decide (c = '_')) || decide (c = '$')) = true := h
  simp only [Bool.or_eq_true, Bool.and_eq_true, decide_eq_true_eq, UInt32.le_iff_toNat_le]
    at hcases
  rcases hcases with (((hupper | hlower) | hdigit) | rfl) | rfl
  · omega
  · omega
  · omega
  · decide
  · decide

/-- What holds of the characters of identifiers is decided by the first 128 characters. -/
theorem forall_isIdentPart {P : Char → Prop}
    (h : ∀ n < 128, isIdentPart (Char.ofNat n) = true → P (Char.ofNat n)) {c : Char}
    (hc : isIdentPart c = true) : P c := by
  have hat := h c.toNat (toNat_lt_of_isIdentPart hc)
  rw [Char.ofNat_toNat] at hat
  exact hat hc

theorem isBare_of_isIdentPart {c : Char} (h : isIdentPart c = true) : isBare c = true :=
  forall_isIdentPart (P := fun c => isBare c = true) (by decide +kernel) h

/-! ### Literals -/

theorem bareStep_quoted {c : Char} (hquote : c ≠ '"') (hslash : c ≠ '\\') :
    bareStep ⟨.quoted, []⟩ c = some ⟨.quoted, []⟩ := by
  simp [bareStep, step, hquote, hslash]

theorem hexDigit_ne {n : Nat} (hn : n < 16) : hexDigit n ≠ '"' ∧ hexDigit n ≠ '\\' := by
  revert n
  decide

theorem scanBare_hex4 (n : Nat) :
    scanBare ⟨.quoted, []⟩ (hex4 n) = some ⟨.quoted, []⟩ := by
  have hdigit : ∀ k, bareStep ⟨.quoted, []⟩ (hexDigit (k % 16)) = some ⟨.quoted, []⟩ := by
    intro k
    obtain ⟨hquote, hslash⟩ := hexDigit_ne (Nat.mod_lt k (by decide : 0 < 16))
    exact bareStep_quoted hquote hslash
  simp only [hex4, scanBare_cons, hdigit, Option.bind_some]
  rfl

/-- A character written inside a quoted literal leaves the scanner inside it. -/
theorem scanBare_escapeChar (c : Char) :
    scanBare ⟨.quoted, []⟩ (escapeChar c) = some ⟨.quoted, []⟩ := by
  unfold escapeChar
  by_cases hslash : c = '\\'
  · rw [if_pos hslash]
    rfl
  by_cases hquote : c = '"'
  · rw [if_neg hslash, if_pos hquote]
    rfl
  rw [if_neg hslash, if_neg hquote]
  split
  · rfl
  split
  · rfl
  split
  · rfl
  split
  · exact scanBare_hex4 c.toNat
  · rw [scanBare_cons, bareStep_quoted hquote hslash]
    rfl

theorem scanBare_escape (text : List Char) :
    scanBare ⟨.quoted, []⟩ (text.flatMap escapeChar) = some ⟨.quoted, []⟩ := by
  induction text with
  | nil => rfl
  | cons c rest ih =>
    rw [List.flatMap_cons, scanBare_append, scanBare_escapeChar]
    exact ih

theorem atomic_quote (text : String) : Atomic (quote text).toList := by
  have hlist : (quote text).toList = ['"'] ++ (text.toList.flatMap escapeChar ++ ['"']) :=
    quote_toList text
  have hopen : scanBare ⟨.code, []⟩ ['"'] = some ⟨.quoted, []⟩ := by decide
  rw [hlist, Atomic, scanBare_append, hopen, Option.bind_some, scanBare_append,
    scanBare_escape, Option.bind_some]
  decide

theorem scanBare_template {text : List Char} (h : '`' ∉ text) :
    scanBare ⟨.template, []⟩ text = some ⟨.template, []⟩ := by
  induction text with
  | nil => rfl
  | cons c rest ih =>
    have hc : c ≠ '`' := fun heq => h (heq ▸ List.mem_cons_self ..)
    have hstep : bareStep ⟨.template, []⟩ c = some ⟨.template, []⟩ := by
      simp [bareStep, step, hc]
    rw [scanBare_cons, hstep]
    exact ih fun hmem => h (List.mem_cons_of_mem _ hmem)

/-- A template literal ends at the first backtick. -/
theorem atomic_template {text : List Char} (h : '`' ∉ text) :
    Atomic ('`' :: (text ++ ['`'])) := by
  have hopen : bareStep ⟨.code, []⟩ '`' = some ⟨.template, []⟩ := by decide
  rw [Atomic, scanBare_cons, hopen, Option.bind_some, scanBare_append, scanBare_template h,
    Option.bind_some]
  decide

theorem isIdentPart_of_isIdentifier {name : String} (h : isIdentifier name = true) {c : Char}
    (hc : c ∈ name.toList) : isIdentPart c = true := by
  unfold isIdentifier at h
  split at h
  · cases h
  · rename_i first rest hlist
    rw [Bool.and_eq_true, List.all_eq_true] at h
    rw [hlist] at hc
    rcases List.mem_cons.mp hc with rfl | hrest
    · have hstart := h.1
      simp only [isIdentStart, isIdentPart, Char.isAlphanum, Bool.or_eq_true] at hstart ⊢
      rcases hstart with (halpha | hunder) | hdollar
      · exact Or.inl (Or.inl (Or.inl halpha))
      · exact Or.inl (Or.inr hunder)
      · exact Or.inr hdollar
    · exact h.2 c hrest

theorem atomic_propertyKey (name : String) : Atomic (propertyKey name).toList := by
  unfold propertyKey
  split
  · rename_i hname
    apply atomic_of_bare
    intro c hc
    exact isBare_of_isIdentPart (isIdentPart_of_isIdentifier hname hc)
  · exact atomic_quote name

/-! ### Lines moved to the right -/

/-- Blanks behind a newline say nothing to the scanner, wherever it stands. -/
theorem scan_indent {s s' : Scanner} (h : step s '\n' = some s') {indent : List Char}
    (hindent : ∀ c ∈ indent, c = ' ') : scan s' indent = some s' := by
  have hblank : step s' ' ' = some s' := by
    obtain ⟨region, pending⟩ := s
    cases region with
    | code =>
      rw [step_of_plain (by decide)] at h
      cases h
      exact step_of_plain (by decide) pending
    | _ =>
      cases h
      rfl
  induction indent with
  | nil => rfl
  | cons c rest ih =>
    obtain rfl := hindent c (List.mem_cons_self ..)
    rw [scan_cons, hblank]
    exact ih fun d hd => hindent d (List.mem_cons_of_mem _ hd)

theorem scan_hang {indent : List Char} (hindent : ∀ c ∈ indent, c = ' ') (text : List Char)
    (s : Scanner) : scan s (hang indent text) = scan s text := by
  rw [hang_eq_flatMap]
  induction text generalizing s with
  | nil => rfl
  | cons c rest ih =>
    rw [List.flatMap_cons, scan_append, scan_cons]
    by_cases hc : c = '\n'
    · subst hc
      rw [if_pos rfl, scan_cons]
      cases hstep : step s '\n' with
      | none => rfl
      | some s' =>
        rw [Option.bind_some, scan_indent hstep hindent, Option.bind_some, Option.bind_some]
        exact ih s'
    · rw [if_neg hc, scan_cons]
      cases hstep : step s c with
      | none => rfl
      | some s' => exact ih s'

/-- A field with a balanced key and a balanced value is balanced. -/
theorem balanced_field {indent key value : String}
    (hblank : indent.toList.all (· = ' ') = true) (hkey : Balanced key.toList)
    (hvalue : Balanced value.toList) : Balanced (field indent key value).toList := by
  have hindent : ∀ c ∈ indent.toList, c = ' ' := by simpa using hblank
  have hhang : Balanced (hang indent.toList value.toList) := by
    rw [Balanced, scan_hang hindent]
    exact hvalue
  have hindented : Balanced indent.toList := by
    apply balanced_of_plain
    intro c hc
    rw [hindent c hc]
    decide
  rw [field_toList]
  exact hindented.append (hkey.append ((by decide : Balanced ": ".toList).append
    (hhang.append (by decide))))

/-- A block of lines in braces, the last of which may be indented. -/
theorem balanced_block {opening body closing : String} (head indent tail : List Char)
    (hopening : opening.toList = head ++ ['\x7b', '\n'])
    (hclosing : closing.toList = indent ++ '\x7d' :: tail) (hhead : Balanced head)
    (hbody : Balanced body.toList) (hindent : Balanced indent) (htail : Balanced tail) :
    Balanced (opening ++ body ++ closing).toList := by
  have hlist : (opening ++ body ++ closing).toList =
      head ++ (('\x7b' :: (('\n' :: (body.toList ++ indent)) ++ ['\x7d'])) ++ tail) := by
    simp only [String.toList_append, hopening, hclosing, List.cons_append, List.nil_append,
      List.append_assoc]
  have hinner : Balanced ('\n' :: (body.toList ++ indent)) :=
    (by decide : Balanced ['\n']).append (hbody.append hindent)
  rw [hlist]
  exact hhead.append ((Atomic.bracket rfl hinner).balanced.append htail)

/-- A block under a label. -/
theorem balanced_labelled {front label body closing : String} (indent tail : List Char)
    (hclosing : closing.toList = indent ++ '\x7d' :: tail) (hfront : Balanced front.toList)
    (hlabel : Balanced label.toList) (hbody : Balanced body.toList) (hindent : Balanced indent)
    (htail : Balanced tail) :
    Balanced (front ++ label ++ ": \x7b\n" ++ body ++ closing).toList := by
  have hopening : (front ++ label ++ ": \x7b\n").toList =
      (front.toList ++ label.toList ++ [':', ' ']) ++ ['\x7b', '\n'] := by
    simp only [String.toList_append, List.append_assoc]
    rfl
  refine balanced_block _ indent tail hopening hclosing ?_ hbody hindent htail
  exact (hfront.append hlabel).append (by decide)

end OpenApiTypings.Text
