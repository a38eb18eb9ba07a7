import Mathlib.Data.Bool.AllAny
import OpenApiTypings.Proofs.Text.Affix
import OpenApiTypings.Proofs.Text.Regex
import OpenApiTypings.Proofs.Type.Denotation
import OpenApiTypings.Schema.KeyPattern

/-!
# Keys that a pattern matches

The key type of a pattern is a text of its own language, which says nothing of regular
expressions.  What that text describes holds every key that the pattern matches, and no other
key where the pattern is a plain text anchored at its beginning.
-/

namespace OpenApiTypings

/-! ### What the text of a key type describes -/

namespace KeyType

/-- The end of a template that leaves what follows its beginning open. -/
def stringHole : List Char := "$\x7bstring\x7d`".toList

/-- The template of numbers. -/
def numberHole : List Char := "$\x7bnumber\x7d`".toList

/-- The characters that do not stand for themselves in a template. -/
def templateSpecials : List Char := ['`', '\\', '$']

/-- Reads the text of a key type: a quoted literal, a template, or the type of all texts.  The
beginning of a template is read as it stands. -/
def ofText? (type : String) : Option KeyType :=
  match type.toList with
  | '"' :: _ => (Text.readQuoted? type).map .exactly
  | '`' :: body =>
      if body = numberHole then some .numeric
      else do
        let beginning ← Text.dropTail? stringHole body
        if beginning.any templateSpecials.contains then none
        return .startingWith (String.ofList beginning)
  | all => if all = "string".toList then some .any else none

/-- The text of a key type describes a key. -/
def Describes (type key : String) : Prop :=
  ∃ keyType, ofText? type = some keyType ∧ keyType.Admits key

theorem ofText?_quote (text : String) : ofText? (Text.quote text) = some (.exactly text) := by
  have hlist : (Text.quote text).toList =
      '"' :: (text.toList.flatMap Text.escapeChar ++ ['"']) := by
    simp [Text.quote, Text.escape]
  rw [ofText?, hlist]
  simp only [Text.readQuoted?_quote, Option.map_some]

theorem ofText?_startingWith {text : List Char} (htext : ∀ c ∈ text, c ∉ templateSpecials) :
    ofText? (KeyType.startingWith (String.ofList text)).render =
      some (.startingWith (String.ofList text)) := by
  have hlist : (KeyType.startingWith (String.ofList text)).render.toList =
      '`' :: (text ++ stringHole) := by
    have hopen : "`".toList = ['`'] := by decide
    unfold render stringHole
    rw [String.toList_append, String.toList_append, hopen, String.toList_ofList,
      List.append_assoc, List.singleton_append]
  -- the hole of numbers begins with a dollar sign, and no text does
  have hnumber : text ++ stringHole ≠ numberHole := by
    intro heq
    cases text with
    | nil => exact absurd heq (by decide)
    | cons c cs =>
      have hc : c = '$' := (List.cons.inj heq).1
      exact htext c List.mem_cons_self (hc ▸ by decide)
  have htail : Text.dropTail? stringHole (text ++ stringHole) = some text :=
    Text.dropTail?_eq_some_iff.mpr rfl
  have hplain : ¬ text.any templateSpecials.contains = true := by
    intro hany
    obtain ⟨c, hc, hspecial⟩ := List.any_eq_true.mp hany
    exact htext c hc (List.contains_iff_mem.mp hspecial)
  rw [ofText?, hlist]
  simp only [if_neg hnumber, htail, Option.bind_eq_bind, Option.bind_some, if_neg hplain]
  rfl

theorem describes_iff {keyType : KeyType} (hread : ofText? keyType.render = some keyType)
    (key : String) : Describes keyType.render key ↔ keyType.Admits key := by
  constructor
  · rintro ⟨given, hgiven, hadmits⟩
    rw [hread] at hgiven
    cases hgiven
    exact hadmits
  · exact fun hadmits => ⟨keyType, hread, hadmits⟩

end KeyType

namespace Schema

/-! ### Patterns taken apart -/

/-- A pattern taken apart: the anchor at its beginning, a text, a repetition of any character and
the anchor at its end.  The last two are taken where they are found. -/
structure Parts (pattern text glob anchor : List Char) : Prop where
  shape : pattern = '^' :: (text ++ (glob ++ anchor))
  glob_form : glob = ['.', '*'] ∨ glob = ['.', '+'] ∨
    glob = [] ∧ ¬ ['.', '*'] <:+ text ∧ ¬ ['.', '+'] <:+ text
  anchor_form : anchor = ['$'] ∨ anchor = [] ∧ ¬ ['$'] <:+ text ++ glob

theorem exists_glob (body : List Char) :
    ∃ text glob, body = text ++ glob ∧ (glob = ['.', '*'] ∨ glob = ['.', '+'] ∨
      glob = [] ∧ ¬ ['.', '*'] <:+ text ∧ ¬ ['.', '+'] <:+ text) := by
  by_cases hstar : ['.', '*'] <:+ body
  · obtain ⟨text, rfl⟩ := hstar
    exact ⟨text, _, rfl, .inl rfl⟩
  by_cases hplus : ['.', '+'] <:+ body
  · obtain ⟨text, rfl⟩ := hplus
    exact ⟨text, _, rfl, .inr (.inl rfl)⟩
  · exact ⟨body, [], (List.append_nil body).symm, .inr (.inr ⟨rfl, hstar, hplus⟩)⟩

theorem exists_parts (rest : List Char) :
    ∃ text glob anchor, Parts ('^' :: rest) text glob anchor := by
  by_cases hdollar : ['$'] <:+ rest
  · obtain ⟨body, rfl⟩ := hdollar
    obtain ⟨text, glob, rfl, hglob⟩ := exists_glob body
    exact ⟨text, glob, ['$'], by rw [List.append_assoc], hglob, .inl rfl⟩
  · obtain ⟨text, glob, rfl, hglob⟩ := exists_glob rest
    exact ⟨text, glob, [], by rw [List.append_nil], hglob, .inr ⟨rfl, hdollar⟩⟩

/-- The text of a pattern that is no text of a key: it is empty, or holds a character with a
meaning of its own. -/
def Unreadable (text : List Char) : Prop :=
  text = [] ∨ ∃ c ∈ text, c ∈ Regex.syntaxCharacters ∨ c = '`'

theorem mem_patternSpecials_iff {c : Char} :
    c ∈ patternSpecials ↔ c ∈ Regex.syntaxCharacters ∨ c = '`' := by
  have hforth : ∀ c ∈ patternSpecials, c ∈ Regex.syntaxCharacters ∨ c = '`' :=
    List.all_iff_forall_prop.mp (by decide)
  have hback : ∀ c ∈ Regex.syntaxCharacters, c ∈ patternSpecials :=
    List.all_iff_forall_prop.mp (by decide)
  refine ⟨hforth c, ?_⟩
  rintro (hspecial | rfl)
  · exact hback c hspecial
  · decide

theorem unreadable_iff {text : List Char} :
    Unreadable text ↔ (text.isEmpty || text.any patternSpecials.contains) = true := by
  simp [Unreadable, mem_patternSpecials_iff]

instance (text : List Char) : Decidable (Unreadable text) :=
  decidable_of_iff _ unreadable_iff.symm

theorem not_unreadable_iff {text : List Char} :
    ¬ Unreadable text ↔ text ≠ [] ∧ ∀ c ∈ text, c ∉ Regex.syntaxCharacters ∧ c ≠ '`' := by
  simp [Unreadable]

section

variable {pattern : String} {text glob anchor : List Char}

theorem keyTypeOfPattern_of_notMem (hdigits : pattern ∉ digitPatterns)
    (h : ∀ rest, pattern.toList ≠ '^' :: rest) : keyTypeOfPattern pattern = .any := by
  unfold keyTypeOfPattern
  rw [if_neg (by simpa using hdigits)]
  split
  · rename_i rest heq
    exact absurd heq (h rest)
  · rfl

/-- What the key type of a pattern is, by the parts of the pattern. -/
theorem keyTypeOfPattern_eq (hdigits : pattern ∉ digitPatterns)
    (h : Parts pattern.toList text glob anchor) :
    keyTypeOfPattern pattern =
      if Unreadable text then .any
      else if anchor = ['$'] ∧ glob = [] then .exactly (String.ofList text)
      else .startingWith (String.ofList text) := by
  -- each end is looked for in what is left of the pattern without the one behind it
  have hanchor : Text.dropTail? ['$'] (text ++ (glob ++ anchor)) = some (text ++ glob) ∧
      anchor = ['$'] ∨
      Text.dropTail? ['$'] (text ++ (glob ++ anchor)) = none ∧ anchor = [] := by
    rcases h.anchor_form with rfl | ⟨rfl, hnone⟩
    · exact .inl ⟨Text.dropTail?_eq_some_iff.mpr (List.append_assoc text glob _).symm, rfl⟩
    · rw [List.append_nil]
      exact .inr ⟨Text.dropTail?_eq_none_iff.mpr hnone, rfl⟩
  have hglob : Text.dropTail? ['.', '*'] (text ++ glob) = some text ∧ glob ≠ [] ∨
      Text.dropTail? ['.', '*'] (text ++ glob) = none ∧
        (Text.dropTail? ['.', '+'] (text ++ glob) = some text ∧ glob ≠ [] ∨
          Text.dropTail? ['.', '+'] (text ++ glob) = none ∧ glob = []) := by
    rcases h.glob_form with rfl | rfl | ⟨rfl, hstar, hplus⟩
    · exact .inl ⟨Text.dropTail?_eq_some_iff.mpr rfl, by decide⟩
    · have hstar : ¬ ['.', '*'] <:+ text ++ ['.', '+'] := by
        rintro ⟨more, heq⟩
        exact absurd (List.append_inj_right' heq rfl) (by decide)
      exact .inr ⟨Text.dropTail?_eq_none_iff.mpr hstar,
        .inl ⟨Text.dropTail?_eq_some_iff.mpr rfl, by decide⟩⟩
    · rw [List.append_nil]
      exact .inr ⟨Text.dropTail?_eq_none_iff.mpr hstar,
        .inr ⟨Text.dropTail?_eq_none_iff.mpr hplus, rfl⟩⟩
  unfold keyTypeOfPattern
  rw [if_neg (by simpa using hdigits), h.shape]
  rcases hanchor with ⟨hanchor, rfl⟩ | ⟨hanchor, rfl⟩ <;>
    rcases hglob with ⟨hstar, hglob⟩ | ⟨hstar, ⟨hplus, hglob⟩ | ⟨hplus, rfl⟩⟩ <;>
    simp_all [unreadable_iff]

theorem keyTypeOfPattern_eq_any (hdigits : pattern ∉ digitPatterns)
    (h : Parts pattern.toList text glob anchor) (htext : Unreadable text) :
    keyTypeOfPattern pattern = .any := by
  rw [keyTypeOfPattern_eq hdigits h, if_pos htext]

theorem keyTypeOfPattern_eq_exactly (hdigits : pattern ∉ digitPatterns)
    (h : Parts pattern.toList text [] ['$']) (htext : ¬ Unreadable text) :
    keyTypeOfPattern pattern = .exactly (String.ofList text) := by
  rw [keyTypeOfPattern_eq hdigits h, if_neg htext, if_pos ⟨rfl, rfl⟩]

theorem keyTypeOfPattern_eq_startingWith (hdigits : pattern ∉ digitPatterns)
    (h : Parts pattern.toList text glob anchor) (htext : ¬ Unreadable text)
    (hopen : ¬ (anchor = ['$'] ∧ glob = [])) :
    keyTypeOfPattern pattern = .startingWith (String.ofList text) := by
  rw [keyTypeOfPattern_eq hdigits h, if_neg htext, if_neg hopen]

end

/-- The shapes of patterns: only digits, no beginning, or parts with a text that is unreadable,
that is all of a key or that begins one. -/
theorem pattern_cases (pattern : String) :
    pattern ∈ digitPatterns ∨ pattern ∉ digitPatterns ∧
      ((∀ rest, pattern.toList ≠ '^' :: rest) ∨
        ∃ text glob anchor, Parts pattern.toList text glob anchor ∧
          (Unreadable text ∨ ¬ Unreadable text ∧
            (anchor = ['$'] ∧ glob = [] ∨ ¬ (anchor = ['$'] ∧ glob = [])))) := by
  by_cases hdigits : pattern ∈ digitPatterns
  · exact .inl hdigits
  refine .inr ⟨hdigits, ?_⟩
  by_cases hstart : ∃ rest, pattern.toList = '^' :: rest
  · obtain ⟨rest, hrest⟩ := hstart
    obtain ⟨text, glob, anchor, hparts⟩ := exists_parts rest
    rw [hrest]
    refine .inr ⟨text, glob, anchor, hparts, ?_⟩
    by_cases htext : Unreadable text
    · exact .inl htext
    · exact .inr ⟨htext, Classical.em _⟩
  · exact .inl fun rest heq => hstart ⟨rest, heq⟩

/-- The parts of a pattern are found where the text is readable. -/
theorem parts_of_readable {text : List Char} (htext : ¬ Unreadable text) {glob anchor : List Char}
    (hglob : glob = ['.', '*'] ∨ glob = ['.', '+'] ∨ glob = [])
    (hanchor : anchor = ['$'] ∨ anchor = []) :
    Parts ('^' :: (text ++ (glob ++ anchor))) text glob anchor := by
  have hplain : ∀ c ∈ Regex.syntaxCharacters, c ∉ text := fun c hspecial hc =>
    ((not_unreadable_iff.mp htext).2 c hc).1 hspecial
  have hstar : ¬ ['.', '*'] <:+ text := fun hsuffix =>
    hplain '*' (by decide) (hsuffix.subset (by decide))
  have hplus : ¬ ['.', '+'] <:+ text := fun hsuffix =>
    hplain '+' (by decide) (hsuffix.subset (by decide))
  have hdollar : '$' ∉ text ++ glob := by
    rw [List.mem_append, not_or]
    exact ⟨hplain '$' (by decide), by rcases hglob with rfl | rfl | rfl <;> decide⟩
  exact
    { shape := rfl
      glob_form := hglob.imp_right (Or.imp_right fun hnil => ⟨hnil, hstar, hplus⟩)
      anchor_form := hanchor.imp_right fun hnil =>
        ⟨hnil, fun hsuffix => hdollar (hsuffix.subset (by decide))⟩ }

theorem notMem_digitPatterns {pattern : String} {text glob anchor : List Char}
    (h : Parts pattern.toList text glob anchor) (htext : ¬ Unreadable text) :
    pattern ∉ digitPatterns := by
  intro hdigits
  obtain ⟨hne, hplain⟩ := not_unreadable_iff.mp htext
  obtain ⟨c, cs, rfl⟩ := List.exists_cons_of_ne_nil hne
  have hsecond : pattern.toList[1]? = some c := by rw [h.shape]; rfl
  have hspecial : '[' ∈ Regex.syntaxCharacters ∧ '\\' ∈ Regex.syntaxCharacters := by decide
  apply (hplain c List.mem_cons_self).1
  rcases List.mem_pair.mp hdigits with rfl | rfl
  · obtain rfl : '[' = c := Option.some.inj hsecond
    exact hspecial.1
  · obtain rfl : '\\' = c := Option.some.inj hsecond
    exact hspecial.2

theorem keyTypeOfPattern_of_mem {pattern : String} (h : pattern ∈ digitPatterns) :
    keyTypeOfPattern pattern = .numeric := by
  unfold keyTypeOfPattern
  rw [if_pos (by simpa using h)]

/-- A text of a pattern stands for itself in a template. -/
theorem notMem_templateSpecials {text : List Char} (htext : ¬ Unreadable text) :
    ∀ c ∈ text, c ∉ KeyType.templateSpecials := by
  intro c hc hspecial
  obtain ⟨hplain, htick⟩ := (not_unreadable_iff.mp htext).2 c hc
  have hall : ∀ c ∈ KeyType.templateSpecials, c ∈ Regex.syntaxCharacters ∨ c = '`' :=
    List.all_iff_forall_prop.mp (by decide)
  rcases hall c hspecial with h | h
  · exact hplain h
  · exact htick h

/-- The text of the key type of a pattern is read back. -/
theorem ofText?_keyTypeOfPattern (pattern : String) :
    KeyType.ofText? (keyTypeOfPattern pattern).render = some (keyTypeOfPattern pattern) := by
  rcases pattern_cases pattern with hdigits | ⟨hdigits, hstart | ⟨text, glob, anchor, hparts,
    htext | ⟨htext, ⟨rfl, rfl⟩ | hopen⟩⟩⟩
  · rw [keyTypeOfPattern_of_mem hdigits]
    decide
  · rw [keyTypeOfPattern_of_notMem hdigits hstart]
    decide
  · rw [keyTypeOfPattern_eq_any hdigits hparts htext]
    decide
  · rw [keyTypeOfPattern_eq_exactly hdigits hparts htext]
    exact KeyType.ofText?_quote _
  · rw [keyTypeOfPattern_eq_startingWith hdigits hparts htext hopen]
    exact KeyType.ofText?_startingWith (notMem_templateSpecials htext)

/-- All keys are described by one text only. -/
theorem keyTypeOfPattern_render_eq_iff {pattern : String} :
    (keyTypeOfPattern pattern).render = "string" ↔ keyTypeOfPattern pattern = .any := by
  constructor
  · intro heq
    have hread := ofText?_keyTypeOfPattern pattern
    rw [heq] at hread
    exact (Option.some.inj hread).symm
  · intro heq
    rw [heq]
    rfl

/-! ### Reading patterns as expressions -/

/-- A pattern with a readable text is read as an expression that begins with the text, and that
ends with it if the pattern does. -/
theorem Parts.read? {pattern text glob anchor : List Char} (h : Parts pattern text glob anchor)
    (htext : ¬ Unreadable text) :
    ∃ items, Regex.read? pattern = some (.start :: (Regex.chars text ++ items)) ∧
      (anchor = ['$'] → glob = [] → items = [.finish]) := by
  have hplain : ∀ c ∈ text, c ∉ Regex.syntaxCharacters := fun c hc =>
    ((not_unreadable_iff.mp htext).2 c hc).1
  have htail : ∃ tokens items, Regex.tokens? (glob ++ anchor) = some tokens ∧
      (∀ count more, tokens ≠ .count count :: more) ∧ Regex.items? tokens = some items ∧
      (anchor = ['$'] → glob = [] → items = [.finish]) := by
    rcases h.glob_form with rfl | rfl | ⟨rfl, -⟩ <;>
      rcases h.anchor_form with rfl | ⟨rfl, -⟩
    · exact ⟨_, _, rfl, nofun, rfl, nofun⟩
    · exact ⟨_, _, rfl, nofun, rfl, nofun⟩
    · exact ⟨_, _, rfl, nofun, rfl, nofun⟩
    · exact ⟨_, _, rfl, nofun, rfl, nofun⟩
    · exact ⟨_, _, rfl, nofun, rfl, fun _ _ => rfl⟩
    · exact ⟨_, _, rfl, nofun, rfl, nofun⟩
  obtain ⟨tokens, items, htokens, hhead, hitems, hend⟩ := htail
  refine ⟨items, ?_, hend⟩
  rw [h.shape]
  exact Regex.read?_start hplain htokens hhead hitems

theorem finds_digits_iff {key : List Char} :
    Regex.Finds [.start, .run .digit .atLeastOnce, .finish] key ↔
      key ≠ [] ∧ ∀ c ∈ key, c ∈ Regex.digits := by
  rw [Regex.finds_start_iff]
  constructor
  · rintro ⟨run, rest, rfl, hlength, hall, rfl, -⟩
    rw [List.append_nil]
    exact ⟨List.ne_nil_of_length_pos hlength, hall⟩
  · rintro ⟨hkey, hall⟩
    exact ⟨key, [], (List.append_nil key).symm, List.length_pos_of_ne_nil hkey, hall, rfl, trivial⟩

/-- The relation of patterns to the keys that they match is that of regular expressions, where a
pattern is read as one.  Nothing is said of other patterns. -/
def MatchesAsRead (matched : String → String → Prop) : Prop :=
  ∀ pattern items, Regex.read? pattern.toList = some items →
    ∀ key, matched pattern key ↔ Regex.Finds items key.toList

section Matched

variable {matched : String → String → Prop} (hmatched : MatchesAsRead matched)
include hmatched

/-- What is matched by a text anchored at its beginning, with a tail that is read. -/
theorem matched_iff {pattern : String} {text tail : List Char} {tokens : List Regex.Token}
    {items : List Regex.Item} (hplain : ∀ c ∈ text, c ∉ Regex.syntaxCharacters)
    (hpattern : pattern.toList = '^' :: (text ++ tail)) (htail : Regex.tokens? tail = some tokens)
    (htokens : ∀ count more, tokens ≠ .count count :: more)
    (hitems : Regex.items? tokens = some items) (key : String) :
    matched pattern key ↔ ∃ rest, key.toList = text ++ rest ∧ Regex.Matches items text rest := by
  have hread : Regex.read? pattern.toList = some (.start :: (Regex.chars text ++ items)) := by
    rw [hpattern]
    exact Regex.read?_start hplain htail htokens hitems
  rw [hmatched _ _ hread, Regex.finds_start_chars_iff]

/-- The key type of a pattern has the keys that the pattern matches. -/
theorem admits_of_matched {pattern key : String} (h : matched pattern key) :
    (keyTypeOfPattern pattern).Admits key := by
  rcases pattern_cases pattern with hdigits | ⟨hdigits, hstart | ⟨text, glob, anchor, hparts,
    htext | ⟨htext, hshape⟩⟩⟩
  · have hread : Regex.read? pattern.toList =
        some [.start, .run .digit .atLeastOnce, .finish] := by
      rcases List.mem_pair.mp hdigits with rfl | rfl <;> decide
    have hdigit : ∀ c ∈ Regex.digits, c.isDigit = true := List.all_eq_true.mp (by decide)
    obtain ⟨hkey, hall⟩ := finds_digits_iff.mp ((hmatched _ _ hread key).mp h)
    rw [keyTypeOfPattern_of_mem hdigits]
    exact Text.exists_readDecimal?_of_digits (fun hempty => hkey (hempty ▸ rfl)) fun c hc =>
      hdigit c (hall c hc)
  · rw [keyTypeOfPattern_of_notMem hdigits hstart]
    trivial
  · rw [keyTypeOfPattern_eq_any hdigits hparts htext]
    trivial
  · obtain ⟨items, hread, hend⟩ := hparts.read? htext
    obtain ⟨rest, hkey, hrest⟩ := Regex.finds_start_chars_iff.mp ((hmatched _ _ hread key).mp h)
    rcases hshape with ⟨rfl, rfl⟩ | hopen
    · rw [keyTypeOfPattern_eq_exactly hdigits hparts htext]
      rw [hend rfl rfl] at hrest
      obtain ⟨rfl, -⟩ := hrest
      rw [List.append_nil] at hkey
      exact String.toList_inj.mp (by rw [hkey, String.toList_ofList])
    · rw [keyTypeOfPattern_eq_startingWith hdigits hparts htext hopen]
      exact ⟨rest, by rw [hkey, String.toList_ofList]⟩

/-- A text anchored at its beginning is matched by no fewer keys than its key type has, if all
that may follow is the end of the key or any character. -/
theorem matched_iff_admits {pattern : String} {text glob anchor : List Char}
    (htext : ¬ Unreadable text) (hpattern : pattern.toList = '^' :: (text ++ (glob ++ anchor)))
    (hshape : glob = [] ∧ (anchor = ['$'] ∨ anchor = []) ∨ glob = ['.', '*'] ∧ anchor = [])
    (key : String) : matched pattern key ↔ (keyTypeOfPattern pattern).Admits key := by
  refine ⟨admits_of_matched hmatched, fun hadmits => ?_⟩
  have hplain : ∀ c ∈ text, c ∉ Regex.syntaxCharacters := fun c hc =>
    ((not_unreadable_iff.mp htext).2 c hc).1
  have hparts : Parts pattern.toList text glob anchor := by
    rw [hpattern]
    refine parts_of_readable htext ?_ ?_ <;> tauto
  have hdigits := notMem_digitPatterns hparts htext
  rcases hshape with ⟨rfl, rfl | rfl⟩ | ⟨rfl, rfl⟩
  · rw [keyTypeOfPattern_eq_exactly hdigits hparts htext] at hadmits
    rw [matched_iff hmatched hplain hpattern rfl nofun rfl]
    refine ⟨[], ?_, rfl, trivial⟩
    rw [List.append_nil, show key = String.ofList text from hadmits, String.toList_ofList]
  · rw [keyTypeOfPattern_eq_startingWith hdigits hparts htext (by decide)] at hadmits
    obtain ⟨rest, hkey⟩ := hadmits
    rw [matched_iff hmatched hplain hpattern rfl nofun rfl]
    exact ⟨rest, by rw [← hkey, String.toList_ofList], trivial⟩
  · rw [keyTypeOfPattern_eq_startingWith hdigits hparts htext (by decide)] at hadmits
    obtain ⟨rest, hkey⟩ := hadmits
    rw [matched_iff hmatched hplain hpattern rfl nofun rfl]
    exact ⟨rest, by rw [← hkey, String.toList_ofList], [], rest, rfl, trivial, nofun, trivial⟩

end Matched

/-- The key type of a pattern that is not one of the spellings of only digits is that of all keys
just when the pattern has no anchor at its beginning, or leaves no text that stands for itself. -/
theorem keyTypeOfPattern_eq_any_iff {pattern : String} (hdigits : pattern ∉ digitPatterns) :
    keyTypeOfPattern pattern = .any ↔ (∀ rest, pattern.toList ≠ '^' :: rest) ∨
      ∃ text glob anchor, Parts pattern.toList text glob anchor ∧ Unreadable text := by
  constructor
  · intro hany
    rcases pattern_cases pattern with hmem | ⟨-, hstart | ⟨text, glob, anchor, hparts,
      htext | ⟨htext, ⟨rfl, rfl⟩ | hopen⟩⟩⟩
    · exact absurd hmem hdigits
    · exact .inl hstart
    · exact .inr ⟨text, glob, anchor, hparts, htext⟩
    · rw [keyTypeOfPattern_eq_exactly hdigits hparts htext] at hany
      cases hany
    · rw [keyTypeOfPattern_eq_startingWith hdigits hparts htext hopen] at hany
      cases hany
  · rintro (hstart | ⟨text, glob, anchor, hparts, htext⟩)
    · exact keyTypeOfPattern_of_notMem hdigits hstart
    · exact keyTypeOfPattern_eq_any hdigits hparts htext

/-- What the text of a key type describes holds every key that the pattern matches.  It holds no
other key where the pattern is a readable text between anchors, or anchored at its beginning
with nothing or a repetition of any character behind.  And but for the spellings of only digits,
all keys are described just when there is no anchor at the beginning, or no readable text. -/
theorem keyTypeOfPattern_covers {matched : String → String → Prop}
    (hmatched : MatchesAsRead matched) :
    (∀ pattern key, matched pattern key →
        KeyType.Describes (keyTypeOfPattern pattern).render key) ∧
      (∀ text : String, ¬ Unreadable text.toList →
        ∀ pattern ∈ ["^" ++ text ++ "$", "^" ++ text, "^" ++ text ++ ".*"], ∀ key,
          matched pattern key ↔ KeyType.Describes (keyTypeOfPattern pattern).render key) ∧
      ∀ pattern, pattern ≠ "^[0-9]+$" → pattern ≠ "^\\d+$" →
        ((keyTypeOfPattern pattern).render = "string" ↔
          (∀ rest, pattern.toList ≠ '^' :: rest) ∨
            ∃ text glob anchor, Parts pattern.toList text glob anchor ∧ Unreadable text) := by
  have hdescribes pattern key := KeyType.describes_iff (ofText?_keyTypeOfPattern pattern) key
  refine ⟨fun pattern key h => ?_, fun text htext pattern hpattern key => ?_,
    fun pattern hclass hescape => ?_⟩
  · exact (hdescribes pattern key).mpr (admits_of_matched hmatched h)
  · rw [hdescribes]
    have hstart : "^".toList = ['^'] := by decide
    simp only [List.mem_cons, List.not_mem_nil, or_false] at hpattern
    rcases hpattern with rfl | rfl | rfl
    · have hlist : ("^" ++ text ++ "$").toList = '^' :: (text.toList ++ ([] ++ ['$'])) := by
        simp [hstart]
      exact matched_iff_admits hmatched htext hlist (.inl ⟨rfl, .inl rfl⟩) key
    · have hlist : ("^" ++ text).toList = '^' :: (text.toList ++ ([] ++ [])) := by
        simp [hstart]
      exact matched_iff_admits hmatched htext hlist (.inl ⟨rfl, .inr rfl⟩) key
    · have hlist : ("^" ++ text ++ ".*").toList =
          '^' :: (text.toList ++ (['.', '*'] ++ [])) := by
        simp [hstart]
      exact matched_iff_admits hmatched htext hlist (.inr ⟨rfl, rfl⟩) key
  · rw [keyTypeOfPattern_render_eq_iff]
    exact keyTypeOfPattern_eq_any_iff (by simp [digitPatterns, hclass, hescape])

/-- A beginning of keys with at least one more character, and a key that it matches. -/
theorem keyTypeOfPattern_covers_beginning :
    ∃ matched, MatchesAsRead matched ∧ matched "^x-.+$" "x-ray" ∧
      (keyTypeOfPattern "^x-.+$").render = "`x-$\x7bstring\x7d`" ∧
      KeyType.Describes "`x-$\x7bstring\x7d`" "x-ray" := by
  let matched : String → String → Prop := fun pattern key =>
    ∃ items, Regex.read? pattern.toList = some items ∧ Regex.Finds items key.toList
  have hmatched : MatchesAsRead matched := by
    intro pattern items hread key
    constructor
    · rintro ⟨given, hgiven, hfinds⟩
      rw [hread] at hgiven
      cases hgiven
      exact hfinds
    · exact fun hfinds => ⟨items, hread, hfinds⟩
  have hkey : matched "^x-.+$" "x-ray" := by
    have hread : Regex.read? "^x-.+$".toList =
        some (.start :: (Regex.chars "x-".toList ++ [.run .any .atLeastOnce, .finish])) := by
      decide
    have hany : ∀ c ∈ "ray".toList, Regex.Atom.any.Accepts c := by
      change ∀ c ∈ "ray".toList, c ∉ Regex.lineEnds
      exact List.all_iff_forall_prop.mp (by decide)
    refine ⟨_, hread, Regex.finds_start_chars_iff.mpr ⟨"ray".toList, by decide, ?_⟩⟩
    exact ⟨"ray".toList, [], by decide, (by decide : 0 < "ray".toList.length), hany, rfl, trivial⟩
  have hrender : (keyTypeOfPattern "^x-.+$").render = "`x-$\x7bstring\x7d`" := by decide
  exact ⟨matched, hmatched, hkey, hrender, hrender ▸ (keyTypeOfPattern_covers hmatched).1 _ _ hkey⟩

end Schema

end OpenApiTypings
