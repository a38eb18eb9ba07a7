import OpenApiTypings.Proofs.Text.Literals

/-!
# Literals of texts that are put together

A text is put together from literals, from pieces that open none, and from fields and lists of
such texts.  Its literals are meant to be those of the pieces, in order.  They are as long as
none of these is broken over two lines: a value is moved to the right, under its key, and a
broken literal would be moved with it.
-/

namespace OpenApiTypings.Text

/-- The text is meant to hold these literals, in order: it breaks one just if one of them is
broken, and holds them as they are if none is. -/
structure Shows (text : String) (tokens : List (List Char)) : Prop where
  closed : Closed text.toList
  onOneLine_iff : OnOneLine (literals text.toList) ↔ OnOneLine tokens
  literals_eq : OnOneLine tokens → literals text.toList = tokens

theorem Shows.unbroken {text : String} {tokens : List (List Char)} (h : Shows text tokens)
    (htokens : OnOneLine tokens) : Unbroken text.toList :=
  ⟨h.closed, h.onOneLine_iff.mpr htokens⟩

/-- A text whose literals are known. -/
theorem Closed.shows {text : String} {tokens : List (List Char)} (h : Closed text.toList)
    (htokens : literals text.toList = tokens) : Shows text tokens :=
  ⟨h, iff_of_eq (congrArg OnOneLine htokens), fun _ => htokens⟩

/-! ### Pieces -/

/-- No character of the text opens a literal. -/
def opensNothing (text : String) : Bool :=
  text.toList.all fun c => c != '"' && c != '`'

theorem closed_of_not_opens {text : List Char} (h : ∀ c ∈ text, c ≠ '"' ∧ c ≠ '`') :
    Closed text ∧ literals text = [] := by
  induction text with
  | nil => exact ⟨rfl, rfl⟩
  | cons c rest ih =>
    rw [List.forall_mem_cons] at h
    obtain ⟨hrest, hnone⟩ := ih h.2
    have hcode : Region.code.next c = .code := by simp [Region.next, h.1.1, h.1.2]
    refine ⟨?_, ?_⟩
    · show (Region.code.next c).after rest = .code
      rw [hcode]
      exact hrest
    · show literalsFrom (Region.code.next c) [c] rest = []
      rw [hcode, literalsFrom_code, hnone]

theorem shows_of_opensNothing {text : String} (h : opensNothing text = true) : Shows text [] := by
  have hplain : ∀ c ∈ text.toList, c ≠ '"' ∧ c ≠ '`' := by
    simpa [opensNothing] using h
  obtain ⟨hclosed, hnone⟩ := closed_of_not_opens hplain
  exact hclosed.shows hnone

/-- Quotes and backticks are not bare. -/
theorem shows_of_bare {text : String} (h : ∀ c ∈ text.toList, isBare c = true) :
    Shows text [] := by
  refine shows_of_opensNothing (List.all_eq_true.mpr fun c hc => ?_)
  have hplain := h c hc
  simp only [isBare, isPlain, Bool.and_eq_true] at hplain
  rw [hplain.1.1.1.1, hplain.1.1.1.2]
  rfl

theorem Shows.append {front back : String} {tokens more : List (List Char)}
    (hfront : Shows front tokens) (hback : Shows back more) :
    Shows (front ++ back) (tokens ++ more) := by
  have hliterals : literals (front ++ back).toList =
      literals front.toList ++ literals back.toList := by
    rw [String.toList_append, literals_append hfront.closed]
  refine ⟨?_, ?_, fun htokens => ?_⟩
  · rw [String.toList_append]
    exact hfront.closed.append hback.closed
  · rw [hliterals, onOneLine_append_iff, onOneLine_append_iff, hfront.onOneLine_iff,
      hback.onOneLine_iff]
  · rw [onOneLine_append_iff] at htokens
    rw [hliterals, hfront.literals_eq htokens.1, hback.literals_eq htokens.2]

section Around

variable {text : String} {tokens : List (List Char)}

/-- What stands behind a text may open no literal. -/
theorem Shows.followed (h : Shows text tokens) {back : String}
    (hback : opensNothing back = true) : Shows (text ++ back) tokens := by
  have hwhole := h.append (shows_of_opensNothing hback)
  rwa [List.append_nil] at hwhole

/-- What stands around a text may open no literal. -/
theorem Shows.between {front back : String} (hfront : opensNothing front = true)
    (h : Shows text tokens) (hback : opensNothing back = true) :
    Shows (front ++ text ++ back) tokens :=
  ((shows_of_opensNothing hfront).append h).followed hback

end Around

section Lists

variable {xs : List α} {text : α → String} {tokens : α → List (List Char)}

theorem shows_join (h : ∀ x ∈ xs, Shows (text x) (tokens x)) :
    Shows (String.join (xs.map text)) (xs.flatMap tokens) := by
  induction xs with
  | nil => exact shows_of_opensNothing rfl
  | cons x rest ih =>
    rw [List.forall_mem_cons] at h
    rw [List.map_cons, String.join_cons, List.flatMap_cons]
    exact h.1.append (ih h.2)

theorem shows_intercalate {separator : String} (hseparator : opensNothing separator = true)
    (h : ∀ x ∈ xs, Shows (text x) (tokens x)) :
    Shows (separator.intercalate (xs.map text)) (xs.flatMap tokens) := by
  induction xs with
  | nil => exact shows_of_opensNothing rfl
  | cons x rest ih =>
    rw [List.forall_mem_cons] at h
    cases rest with
    | nil =>
      rw [List.map_singleton, String.intercalate_singleton, List.flatMap_singleton]
      exact h.1
    | cons second more =>
      rw [List.map_cons, List.map_cons, String.intercalate_cons_cons, List.flatMap_cons]
      exact (h.1.followed hseparator).append (ih h.2)

end Lists

/-! ### Literals -/

/-- A literal that is open in the region is open behind the text, with the text in it. -/
structure StaysIn (region : Region) (text : List Char) : Prop where
  after : region.after text = region
  literals : ∀ literal rest,
    literalsFrom region literal (text ++ rest) = literalsFrom region (literal ++ text) rest

namespace StaysIn

variable {region : Region}

theorem nil : StaysIn region [] :=
  ⟨rfl, fun literal rest => by rw [List.append_nil, List.nil_append]⟩

theorem append {front back : List Char} (hfront : StaysIn region front)
    (hback : StaysIn region back) : StaysIn region (front ++ back) := by
  refine ⟨?_, fun literal rest => ?_⟩
  · rw [Region.after_append, hfront.after, hback.after]
  · rw [List.append_assoc, hfront.literals, hback.literals, List.append_assoc]

theorem flatMap {write : α → List Char} {xs : List α} (h : ∀ x ∈ xs, StaysIn region (write x)) :
    StaysIn region (xs.flatMap write) := by
  induction xs with
  | nil => exact nil
  | cons x rest ih =>
    rw [List.forall_mem_cons] at h
    rw [List.flatMap_cons]
    exact h.1.append (ih h.2)

theorem single (hregion : region ≠ .code) {c : Char} (hc : region.next c = region) :
    StaysIn region [c] := by
  refine ⟨hc, fun literal rest => ?_⟩
  rw [List.singleton_append, literalsFrom_cons hregion, hc, if_neg hregion]

/-- A backslash takes the next character into a literal. -/
theorem escaped (c : Char) : StaysIn .quoted ['\\', c] := by
  refine ⟨rfl, fun literal rest => ?_⟩
  show literalsFrom .quoted (literal ++ ['\\'] ++ [c]) rest = _
  rw [List.append_assoc]
  rfl

end StaysIn

theorem next_quoted {c : Char} (hquote : c ≠ '"') (hslash : c ≠ '\\') :
    Region.quoted.next c = .quoted := by
  simp [Region.next, hquote, hslash]

theorem staysIn_escapeChar (c : Char) : StaysIn .quoted (escapeChar c) := by
  have hplain : ∀ {d : Char}, d ≠ '"' ∧ d ≠ '\\' → StaysIn .quoted [d] := fun hd =>
    .single (show Region.quoted ≠ .code from nofun) (next_quoted hd.1 hd.2)
  have hdigit : ∀ n, StaysIn .quoted [hexDigit (n % 16)] := fun n =>
    hplain (hexDigit_ne (Nat.mod_lt n (by decide)))
  unfold escapeChar
  by_cases hslash : c = '\\'
  · rw [if_pos hslash]
    exact .escaped '\\'
  by_cases hquote : c = '"'
  · rw [if_neg hslash, if_pos hquote]
    exact .escaped '"'
  rw [if_neg hslash, if_neg hquote]
  split
  · exact .escaped 'n'
  split
  · exact .escaped 'r'
  split
  · exact .escaped 't'
  split
  · exact (StaysIn.escaped 'u').append
      ((hdigit _).append ((hdigit _).append ((hdigit _).append (hdigit _))))
  · exact hplain ⟨hquote, hslash⟩

theorem newline_notMem_escapeChar (c : Char) : '\n' ∉ escapeChar c := by
  have hdigit : ∀ n, '\n' ≠ hexDigit (n % 16) := by
    intro n
    have hall : ∀ k < 16, '\n' ≠ hexDigit k := by decide
    exact hall _ (Nat.mod_lt n (by decide))
  unfold escapeChar
  split
  · decide
  split
  · decide
  split
  · decide
  split
  · decide
  split
  · decide
  split
  · have hpair : '\n' ≠ '\\' ∧ '\n' ≠ 'u' := by decide
    simp only [hex4, List.mem_cons, List.not_mem_nil, or_false, not_or]
    exact ⟨hpair.1, hpair.2, hdigit _, hdigit _, hdigit _, hdigit _⟩
  · rename_i hnewline _ _ _
    rw [List.mem_singleton]
    exact fun heq => hnewline heq.symm

/-- A literal from the character that opens it to the one that closes it. -/
theorem shows_literal {mark : Char} {body : List Char} {region : Region}
    (hregion : region ≠ .code) (hopen : Region.code.next mark = region)
    (hclose : region.next mark = .code) (hbody : StaysIn region body) {text : String}
    (htext : text.toList = mark :: (body ++ [mark])) : Shows text [text.toList] := by
  rw [htext]
  refine Closed.shows ?_ ?_
  · rw [htext]
    show (Region.code.next mark).after (body ++ [mark]) = .code
    rw [hopen, Region.after_append, hbody.after]
    exact hclose
  · rw [htext]
    show literalsFrom (Region.code.next mark) [mark] (body ++ [mark]) = _
    rw [hopen, hbody.literals, literalsFrom_cons hregion, if_pos hclose]
    rfl

/-- Line breaks are escaped in a quoted literal. -/
theorem onOneLine_quote (s : String) : OnOneLine [(quote s).toList] := by
  intro token htoken hmem
  rw [List.mem_singleton.mp htoken, quote_toList] at hmem
  rcases List.mem_cons.mp hmem with hquote | hrest
  · exact absurd hquote (by decide)
  rcases List.mem_append.mp hrest with hescaped | hquote
  · obtain ⟨c, -, hc⟩ := List.mem_flatMap.mp hescaped
    exact newline_notMem_escapeChar c hc
  · exact absurd (List.mem_singleton.mp hquote) (by decide)

theorem shows_quote (s : String) : Shows (quote s) [(quote s).toList] := by
  have hbody : StaysIn .quoted (s.toList.flatMap escapeChar) :=
    .flatMap fun c _ => staysIn_escapeChar c
  exact shows_literal (show Region.quoted ≠ .code from nofun) rfl rfl hbody (quote_toList s)

/-- A template ends at the first backtick. -/
theorem shows_template {body : List Char} (htick : '`' ∉ body) {text : String}
    (htext : text.toList = '`' :: (body ++ ['`'])) : Shows text [text.toList] := by
  have hbody : StaysIn .template body := by
    rw [← List.flatMap_singleton' body]
    refine .flatMap fun c hc => .single (show Region.template ≠ .code from nofun) ?_
    have hne : c ≠ '`' := fun heq => htick (heq ▸ hc)
    simp [Region.next, hne]
  exact shows_literal (show Region.template ≠ .code from nofun) rfl rfl hbody htext

/-! ### Fields -/

/-- The literals of a property key: none when it is bare. -/
def keyLiterals (name : String) : List (List Char) :=
  if isIdentifier name then [] else [(quote name).toList]

theorem onOneLine_keyLiterals (name : String) : OnOneLine (keyLiterals name) := by
  unfold keyLiterals
  split
  · exact onOneLine_nil
  · exact onOneLine_quote name

theorem shows_propertyKey (name : String) : Shows (propertyKey name) (keyLiterals name) := by
  unfold propertyKey keyLiterals
  split
  · rename_i hname
    exact shows_of_bare fun c hc => isBare_of_isIdentPart (isIdentPart_of_isIdentifier hname hc)
  · exact shows_quote name

/-- A field holds the literals of its key and those of its value, which is moved under it. -/
theorem Shows.field {indent key value : String} {tokens more : List (List Char)}
    (hblank : indent.toList.all (· = ' ') = true) (hkey : Shows key tokens)
    (hvalue : Shows value more) : Shows (Text.field indent key value) (tokens ++ more) := by
  have hindent : ∀ c ∈ indent.toList, c = ' ' := by simpa using hblank
  have hquiet : opensNothing indent = true :=
    List.all_eq_true.mpr fun c hc => hindent c hc ▸ by decide
  have hmoved : Shows (String.ofList (hang indent.toList value.toList)) more := by
    refine ⟨?_, ?_, fun hmore => ?_⟩
    · rw [String.toList_ofList]
      exact hvalue.closed.hang hindent
    · rw [String.toList_ofList, onOneLine_literals_hang_iff hindent hvalue.closed,
        hvalue.onOneLine_iff]
    · rw [String.toList_ofList, literals_hang hindent (hvalue.unbroken hmore),
        hvalue.literals_eq hmore]
  have hcolon : opensNothing ": " = true := by decide
  have hend : opensNothing ";\n" = true := by decide
  rw [field_eq]
  exact ((hkey.between hquiet hcolon).append hmoved).followed hend

end OpenApiTypings.Text
