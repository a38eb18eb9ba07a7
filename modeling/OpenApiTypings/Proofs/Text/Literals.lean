import Mathlib.Data.List.DropRight
import OpenApiTypings.Output.Write
import OpenApiTypings.Proofs.Text.Bracket

/-!
# Literals of a text

A text is read from left to right.  A double quote opens a literal, which ends at the next one
that is not escaped, and a backtick opens a template, which ends at the next backtick.  What is
left is cut into chunks at white space; a literal is never cut.

Moving lines to the right and taking blanks away from the ends of lines leaves the chunks of a
text as they are, and with them its literals, as long as no literal is broken over two lines.
-/

namespace OpenApiTypings.Text

/-! ### Regions -/

/-- Where a reader stands behind a character. -/
def Region.next : Region → Char → Region
  | .code, c => if c = '"' then .quoted else if c = '`' then .template else .code
  | .quoted, c => if c = '"' then .code else if c = '\\' then .escaped else .quoted
  | .escaped, _ => .quoted
  | .template, c => if c = '`' then .code else .template

/-- Where a reader stands behind a text. -/
def Region.after (region : Region) (text : List Char) : Region := text.foldl Region.next region

theorem Region.after_append (region : Region) (front back : List Char) :
    region.after (front ++ back) = (region.after front).after back := List.foldl_append

/-- No literal is left open at the end of the text. -/
def Closed (text : List Char) : Prop := Region.code.after text = .code

theorem Closed.append {front back : List Char} (hfront : Closed front) (hback : Closed back) :
    Closed (front ++ back) := by
  rw [Closed, Region.after_append, hfront]
  exact hback

/-- The scanner of brackets reads literals alike. -/
theorem region_of_step {s s' : Scanner} {c : Char} (h : step s c = some s') :
    s'.region = s.region.next c := by
  obtain ⟨region, pending⟩ := s
  cases region with
  | code =>
    change codeStep pending c = some s' at h
    unfold codeStep at h
    split at h
    · rename_i hquote
      cases h
      exact (if_pos hquote).symm
    rename_i hquote
    split at h
    · rename_i htick
      cases h
      exact ((if_neg hquote).trans (if_pos htick)).symm
    rename_i htick
    have hcode : Region.code.next c = .code := (if_neg hquote).trans (if_neg htick)
    have hregion : s'.region = .code := by
      split at h
      · cases h
        rfl
      split at h
      · split at h
        · cases h
        · split at h
          · cases h
            rfl
          · cases h
      · cases h
        rfl
    rw [hregion, hcode]
  | quoted =>
    cases h
    rfl
  | escaped =>
    cases h
    rfl
  | template =>
    cases h
    rfl

theorem region_of_scan {s s' : Scanner} {text : List Char} (h : scan s text = some s') :
    s'.region = s.region.after text := by
  induction text generalizing s with
  | nil =>
    cases h
    rfl
  | cons c rest ih =>
    rw [scan_cons] at h
    obtain ⟨next, hstep, hrest⟩ := Option.bind_eq_some_iff.mp h
    rw [ih hrest, region_of_step hstep]
    rfl

theorem Balanced.closed {text : List Char} (h : Balanced text) : Closed text :=
  (region_of_scan h).symm

/-- White space opens and closes nothing. -/
theorem Region.next_blank {c : Char} (hc : isBlank c = true) :
    Region.code.next c = .code ∧ ∀ region : Region, region.next c = .code → region = .code := by
  have hquote : c ≠ '"' := by
    rintro rfl
    exact absurd hc (by decide)
  have htick : c ≠ '`' := by
    rintro rfl
    exact absurd hc (by decide)
  have hcode : Region.code.next c = .code := by simp [next, hquote, htick]
  refine ⟨hcode, fun region hregion => ?_⟩
  cases region with
  | code => rfl
  | quoted =>
    simp only [next, if_neg hquote] at hregion
    split at hregion <;> cases hregion
  | escaped => cases hregion
  | template => simp [next, htick] at hregion

/-! ### Literals -/

/-- The literals that are closed in a text, from a region with the beginning of a literal that is
open there. -/
def literalsFrom : Region → List Char → List Char → List (List Char)
  | _, _, [] => []
  | .code, _, c :: rest => literalsFrom (Region.code.next c) [c] rest
  | region, literal, c :: rest =>
      if region.next c = .code then (literal ++ [c]) :: literalsFrom .code [] rest
      else literalsFrom (region.next c) (literal ++ [c]) rest

/-- The literals of a text with their quotes, in order. -/
def literals (text : List Char) : List (List Char) := literalsFrom .code [] text

theorem literalsFrom_code (literal text : List Char) :
    literalsFrom .code literal text = literals text := by
  cases text <;> rfl

theorem literalsFrom_cons {region : Region} (hregion : region ≠ .code) (literal : List Char)
    (c : Char) (rest : List Char) :
    literalsFrom region literal (c :: rest) =
      if region.next c = .code then (literal ++ [c]) :: literals rest
      else literalsFrom (region.next c) (literal ++ [c]) rest := by
  cases region with
  | code => exact absurd rfl hregion
  | quoted => rfl
  | escaped => rfl
  | template => rfl

theorem literalsFrom_append {region : Region} {front : List Char}
    (h : region.after front = .code) (literal back : List Char) :
    literalsFrom region literal (front ++ back) =
      literalsFrom region literal front ++ literals back := by
  -- a literal may be open in front, so the region and what is read of it vary
  induction front generalizing region literal with
  | nil =>
    obtain rfl : region = .code := h
    exact literalsFrom_code literal back
  | cons c rest ih =>
    have hrest : (region.next c).after rest = .code := h
    by_cases hregion : region = .code
    · subst hregion
      exact ih hrest [c]
    · rw [List.cons_append, literalsFrom_cons hregion, literalsFrom_cons hregion]
      split
      · rename_i hclose
        rw [hclose] at hrest
        exact congrArg ((literal ++ [c]) :: ·) (ih hrest [])
      · exact ih hrest _

theorem literals_append {front : List Char} (h : Closed front) (back : List Char) :
    literals (front ++ back) = literals front ++ literals back :=
  literalsFrom_append h [] back

theorem literals_cons_blank {c : Char} (hc : isBlank c = true) (rest : List Char) :
    literals (c :: rest) = literals rest := by
  have hcode := (Region.next_blank hc).1
  show literalsFrom (Region.code.next c) [c] rest = literals rest
  rw [hcode, literalsFrom_code]

/-- A literal that is open is closed behind what is read of it. -/
theorem exists_literal_of_open {region : Region} (hregion : region ≠ .code) {text : List Char}
    (h : region.after text = .code) (literal : List Char) :
    ∃ whole ∈ literalsFrom region literal text, literal <+: whole := by
  induction text generalizing region literal with
  | nil => exact absurd h hregion
  | cons c rest ih =>
    rw [literalsFrom_cons hregion]
    split
    · exact ⟨_, List.mem_cons_self, List.prefix_append literal [c]⟩
    · rename_i hopen
      obtain ⟨whole, hmem, hfront⟩ := ih hopen h (literal ++ [c])
      exact ⟨whole, hmem, (List.prefix_append literal [c]).trans hfront⟩

/-! ### Chunks -/

/-- The chunk that is gathered, if there is one. -/
def chunkIn (chunk : List Char) : List (List Char) := if chunk.isEmpty then [] else [chunk]

/-- The chunks of a text, from a region with the beginning of a chunk. -/
def chunksFrom : Region → List Char → List Char → List (List Char)
  | _, chunk, [] => chunkIn chunk
  | region, chunk, c :: rest =>
      if region = .code ∧ isBlank c = true then chunkIn chunk ++ chunksFrom .code [] rest
      else chunksFrom (region.next c) (chunk ++ [c]) rest

/-- The chunks of a text.  White space outside of literals parts them. -/
def chunks (text : List Char) : List (List Char) := chunksFrom .code [] text

theorem chunksFrom_blank {c : Char} (hc : isBlank c = true) (chunk rest : List Char) :
    chunksFrom .code chunk (c :: rest) = chunkIn chunk ++ chunks rest :=
  if_pos ⟨rfl, hc⟩

theorem chunks_append_of_blank {blanks : List Char} (h : ∀ c ∈ blanks, isBlank c = true)
    (rest : List Char) : chunks (blanks ++ rest) = chunks rest := by
  induction blanks with
  | nil => rfl
  | cons c more ih =>
    rw [List.forall_mem_cons] at h
    rw [List.cons_append, chunks, chunksFrom_blank h.1, ih h.2]
    rfl

/-- White space outside of literals parts the chunks around it. -/
theorem chunksFrom_append_blank {region : Region} {front : List Char}
    (h : region.after front = .code) {c : Char} (hc : isBlank c = true) (chunk back : List Char) :
    chunksFrom region chunk (front ++ c :: back) =
      chunksFrom region chunk front ++ chunks back := by
  induction front generalizing region chunk with
  | nil =>
    obtain rfl : region = .code := h
    exact chunksFrom_blank hc chunk back
  | cons d rest ih =>
    have hrest : (region.next d).after rest = .code := h
    rw [List.cons_append, chunksFrom, chunksFrom]
    split
    · rename_i hblank
      obtain ⟨rfl, hd⟩ := hblank
      rw [(Region.next_blank hd).1] at hrest
      rw [ih hrest [], List.append_assoc]
    · exact ih hrest _

theorem chunks_append_blank {front : List Char} (h : Closed front) {c : Char}
    (hc : isBlank c = true) (back : List Char) :
    chunks (front ++ c :: back) = chunks front ++ chunks back :=
  chunksFrom_append_blank h hc [] back

theorem literals_append_eq_flatMap {region : Region} {chunk : List Char}
    (hchunk : Region.code.after chunk = region) (text : List Char) :
    literals (chunk ++ text) = (chunksFrom region chunk text).flatMap literals := by
  induction text generalizing region chunk with
  | nil =>
    rw [List.append_nil, chunksFrom, chunkIn]
    split
    · rename_i hempty
      rw [List.isEmpty_iff.mp hempty]
      rfl
    · exact (List.flatMap_singleton literals chunk).symm
  | cons c rest ih =>
    rw [chunksFrom]
    split
    · rename_i hblank
      obtain ⟨rfl, hc⟩ := hblank
      have hgathered : (chunkIn chunk).flatMap literals = literals chunk := by
        cases chunk with
        | nil => rfl
        | cons => exact List.flatMap_singleton literals _
      rw [List.flatMap_append, hgathered, literals_append hchunk, literals_cons_blank hc]
      have hrest : literals ([] ++ rest) = (chunksFrom .code [] rest).flatMap literals := ih rfl
      exact congrArg (literals chunk ++ ·) hrest
    · have hnext : Region.code.after (chunk ++ [c]) = region.next c := by
        rw [Region.after_append, hchunk]
        rfl
      rw [← ih hnext, List.append_assoc]
      rfl

/-- The literals of a text are those of its chunks. -/
theorem literals_eq_flatMap (text : List Char) : literals text = (chunks text).flatMap literals :=
  @literals_append_eq_flatMap .code [] rfl text

/-! ### Literals on one line -/

/-- None of the texts is broken over two lines. -/
def OnOneLine (tokens : List (List Char)) : Prop := ∀ token ∈ tokens, '\n' ∉ token

instance (tokens : List (List Char)) : Decidable (OnOneLine tokens) :=
  List.decidableBAll ('\n' ∉ ·) tokens

theorem onOneLine_nil : OnOneLine [] := nofun

theorem onOneLine_append_iff {tokens more : List (List Char)} :
    OnOneLine (tokens ++ more) ↔ OnOneLine tokens ∧ OnOneLine more :=
  List.forall_mem_append

theorem onOneLine_flatMap {xs : List α} {tokens : α → List (List Char)}
    (h : ∀ x ∈ xs, OnOneLine (tokens x)) : OnOneLine (xs.flatMap tokens) := by
  intro token htoken
  obtain ⟨x, hx, hmem⟩ := List.mem_flatMap.mp htoken
  exact h x hx token hmem

/-- All literals are closed in the text, each on the line on which it is opened. -/
structure Unbroken (text : List Char) : Prop where
  closed : Closed text
  onOneLine : OnOneLine (literals text)

/-- From the region on, lines break outside of literals alone. -/
def BreaksOutside : Region → List Char → Prop
  | _, [] => True
  | region, c :: rest => (c = '\n' → region = .code) ∧ BreaksOutside (region.next c) rest

theorem breaksOutside_append_iff {region : Region} {front back : List Char} :
    BreaksOutside region (front ++ back) ↔
      BreaksOutside region front ∧ BreaksOutside (region.after front) back := by
  induction front generalizing region with
  | nil => exact (and_iff_right trivial).symm
  | cons c rest ih =>
    rw [List.cons_append, BreaksOutside, ih, BreaksOutside, and_assoc]
    rfl

theorem breaksOutside_of_notMem {region : Region} {text : List Char} (h : '\n' ∉ text) :
    BreaksOutside region text := by
  induction text generalizing region with
  | nil => exact trivial
  | cons c rest ih =>
    rw [List.mem_cons, not_or] at h
    exact ⟨fun hc => absurd hc.symm h.1, ih h.2⟩

/-- The literals that are closed in a text are on one line just if none is open where a line
breaks. -/
theorem onOneLine_literalsFrom_iff {region : Region} {text : List Char}
    (h : region.after text = .code) {literal : List Char}
    (hliteral : region ≠ .code → '\n' ∉ literal) :
    OnOneLine (literalsFrom region literal text) ↔ BreaksOutside region text := by
  induction text generalizing region literal with
  | nil =>
    obtain rfl : region = .code := h
    exact iff_of_true onOneLine_nil trivial
  | cons c rest ih =>
    have hrest : (region.next c).after rest = .code := h
    by_cases hregion : region = .code
    · subst hregion
      have hopened : Region.code.next c ≠ .code → '\n' ∉ [c] := by
        intro hopen hmem
        obtain rfl := List.mem_singleton.mp hmem
        exact hopen (Region.next_blank (by decide)).1
      exact (ih hrest hopened).trans (and_iff_right fun _ => rfl).symm
    have hbreak : region.next '\n' ≠ .code := fun hcode =>
      hregion ((Region.next_blank (by decide)).2 region hcode)
    rw [literalsFrom_cons hregion]
    by_cases hc : c = '\n'
    · subst hc
      -- the literal that is open here ends up in the list with the break in it
      rw [if_neg hbreak]
      refine iff_of_false (fun hall => ?_) fun hbreaks => hregion (hbreaks.1 rfl)
      obtain ⟨whole, hmem, hfront⟩ := exists_literal_of_open hbreak h (literal ++ ['\n'])
      exact hall whole hmem (hfront.subset (by simp))
    · have hlonger : '\n' ∉ literal ++ [c] := by
        rw [List.mem_append, List.mem_singleton, not_or]
        exact ⟨hliteral hregion, fun heq => hc heq.symm⟩
      have hbehind : BreaksOutside region (c :: rest) ↔ BreaksOutside (region.next c) rest :=
        and_iff_right fun heq => absurd heq hc
      rw [hbehind]
      split
      · rename_i hclose
        rw [hclose] at hrest ⊢
        rw [OnOneLine, List.forall_mem_cons, and_iff_right hlonger]
        exact ih hrest fun hopen => absurd rfl hopen
      · exact ih hrest fun _ => hlonger

theorem Closed.onOneLine_iff {text : List Char} (h : Closed text) :
    OnOneLine (literals text) ↔ BreaksOutside .code text :=
  onOneLine_literalsFrom_iff h fun hopen => absurd rfl hopen

theorem Unbroken.breaksOutside {text : List Char} (h : Unbroken text) :
    BreaksOutside .code text :=
  h.closed.onOneLine_iff.mp h.onOneLine

/-! ### Moved lines -/

/-- Blanks behind a line break open and close nothing, wherever it stands. -/
theorem Region.after_indent {indent : List Char} (hindent : ∀ c ∈ indent, c = ' ')
    (region : Region) : (region.next '\n').after indent = region.next '\n' := by
  have hsame : (region.next '\n').next ' ' = region.next '\n' := by cases region <;> decide
  generalize region.next '\n' = behind at hsame
  induction indent with
  | nil => rfl
  | cons c more ih =>
    rw [List.forall_mem_cons] at hindent
    obtain ⟨rfl, hmore⟩ := hindent
    show (behind.next ' ').after more = behind
    rw [hsame]
    exact ih hmore

section Hang

variable {indent : List Char} (hindent : ∀ c ∈ indent, c = ' ')
include hindent

theorem Region.after_hang (text : List Char) (region : Region) :
    region.after (hang indent text) = region.after text := by
  rw [hang_eq_flatMap]
  induction text generalizing region with
  | nil => rfl
  | cons c rest ih =>
    rw [List.flatMap_cons, Region.after_append, ih]
    show _ = (region.next c).after rest
    congr 1
    split
    · rename_i hc
      subst hc
      exact Region.after_indent hindent region
    · rfl

theorem Closed.hang {text : List Char} (h : Closed text) : Closed (hang indent text) := by
  rw [Closed, Region.after_hang hindent]
  exact h

theorem breaksOutside_hang_iff {region : Region} {text : List Char} :
    BreaksOutside region (Text.hang indent text) ↔ BreaksOutside region text := by
  have hblank : '\n' ∉ indent := fun hmem => absurd (hindent _ hmem) (by decide)
  rw [hang_eq_flatMap]
  induction text generalizing region with
  | nil => exact Iff.rfl
  | cons c rest ih =>
    have hrest : ∀ region, BreaksOutside region (rest.flatMap fun c =>
        if c = '\n' then '\n' :: indent else [c]) ↔ BreaksOutside region rest := fun _ => ih
    rw [List.flatMap_cons, breaksOutside_append_iff, hrest, BreaksOutside]
    split
    · rename_i hc
      subst hc
      have hbehind : region.after ('\n' :: indent) = region.next '\n' :=
        Region.after_indent hindent region
      rw [hbehind, BreaksOutside, and_iff_left (breaksOutside_of_notMem hblank)]
    · rw [BreaksOutside, and_iff_left (show BreaksOutside _ [] from trivial)]
      rfl

/-- Moving the lines of a text to the right breaks no literal and mends none. -/
theorem onOneLine_literals_hang_iff {text : List Char} (h : Closed text) :
    OnOneLine (literals (Text.hang indent text)) ↔ OnOneLine (literals text) := by
  rw [(h.hang hindent).onOneLine_iff, h.onOneLine_iff, breaksOutside_hang_iff hindent]

theorem chunksFrom_hang {region : Region} {text : List Char} (h : BreaksOutside region text)
    (chunk : List Char) :
    chunksFrom region chunk (Text.hang indent text) = chunksFrom region chunk text := by
  have hblank : ∀ c ∈ indent, isBlank c = true := fun c hc => hindent c hc ▸ by decide
  rw [hang_eq_flatMap]
  induction text generalizing region chunk with
  | nil => rfl
  | cons c rest ih =>
    obtain ⟨hbreak, hrest⟩ := h
    rw [List.flatMap_cons]
    by_cases hc : c = '\n'
    · subst hc
      obtain rfl := hbreak rfl
      -- what is put behind the break is white space between chunks, as the break is
      rw [if_pos rfl, List.cons_append, chunksFrom_blank (by decide), chunksFrom_blank (by decide),
        chunks_append_of_blank hblank]
      exact congrArg (chunkIn chunk ++ ·) (ih hrest [])
    · rw [if_neg hc, List.singleton_append, chunksFrom, chunksFrom]
      split
      · rename_i hcode
        obtain ⟨rfl, hspace⟩ := hcode
        rw [(Region.next_blank hspace).1] at hrest
        exact congrArg (chunkIn chunk ++ ·) (ih hrest [])
      · exact ih hrest _

/-- Moving the lines of a text to the right leaves its chunks as they are. -/
theorem chunks_hang {text : List Char} (h : Unbroken text) :
    chunks (Text.hang indent text) = chunks text :=
  chunksFrom_hang hindent h.breaksOutside []

theorem literals_hang {text : List Char} (h : Unbroken text) :
    literals (Text.hang indent text) = literals text := by
  rw [literals_eq_flatMap, chunks_hang hindent h, ← literals_eq_flatMap]

end Hang

/-! ### Lines without blanks at their ends -/

theorem chunks_nil : chunks [] = [] := rfl

theorem unlines_singleton (line : List Char) : unlines [line] = line := by simp [unlines]

theorem closed_unlines {parts : List (List Char)} (h : ∀ line ∈ parts, Closed line) :
    Closed (unlines parts) := by
  induction parts with
  | nil => exact rfl
  | cons line more ih =>
    rw [List.forall_mem_cons] at h
    by_cases hmore : more = []
    · subst hmore
      rw [unlines_singleton]
      exact h.1
    · have hsplit := unlines_append (List.cons_ne_nil line []) hmore
      rw [List.singleton_append, unlines_singleton] at hsplit
      rw [hsplit]
      exact h.1.append ((show Closed ['\n'] from rfl).append (ih h.2))

theorem chunks_unlines {parts : List (List Char)} (h : ∀ line ∈ parts, Closed line) :
    chunks (unlines parts) = parts.flatMap chunks := by
  induction parts with
  | nil => rfl
  | cons line more ih =>
    rw [List.forall_mem_cons] at h
    rw [List.flatMap_cons]
    by_cases hmore : more = []
    · subst hmore
      rw [unlines_singleton, List.flatMap_nil, List.append_nil]
    · have hsplit := unlines_append (List.cons_ne_nil line []) hmore
      rw [List.singleton_append, unlines_singleton] at hsplit
      rw [hsplit, chunks_append_blank h.1 (by decide), ih h.2]

/-- The lines of a text whose literals are on one line have literals of their own. -/
theorem BreaksOutside.closed_lines {region : Region} {text : List Char}
    (h : BreaksOutside region text) (hclosed : region.after text = .code) :
    ∃ first more, lines text = first :: more ∧ region.after first = .code ∧
      ∀ line ∈ more, Closed line := by
  induction text generalizing region with
  | nil => exact ⟨[], [], rfl, hclosed, nofun⟩
  | cons c rest ih =>
    obtain ⟨first, more, hlines, hfirst, hmore⟩ := ih h.2 hclosed
    by_cases hc : c = '\n'
    · subst hc
      obtain rfl := h.1 rfl
      refine ⟨[], lines rest, lines_newline rest, rfl, ?_⟩
      rw [hlines, List.forall_mem_cons]
      exact ⟨hfirst, hmore⟩
    · exact ⟨c :: first, more, lines_cons_of_ne hc hlines, hfirst, hmore⟩

theorem Unbroken.closed_of_mem_lines {text : List Char} (h : Unbroken text) :
    ∀ line ∈ lines text, Closed line := by
  obtain ⟨first, more, hlines, hfirst, hmore⟩ := h.breaksOutside.closed_lines h.closed
  rw [hlines, List.forall_mem_cons]
  exact ⟨hfirst, hmore⟩

/-- Taking blanks away from the end of a line leaves its chunks as they are. -/
theorem trimEnd_of_closed {line : List Char} (h : Closed line) :
    Closed (trimEnd isTrailingBlank line) ∧
      chunks (trimEnd isTrailingBlank line) = chunks line := by
  -- from the end: no blank closes a literal, so what is in front of one is closed as well
  induction line using List.reverseRecOn with
  | nil => exact ⟨rfl, rfl⟩
  | append_singleton front c ih =>
    by_cases hc : isTrailingBlank c = true
    · have hblank : isBlank c = true := by
        rcases (by simpa [isTrailingBlank] using hc : c = ' ' ∨ c = '\t') with rfl | rfl <;> decide
      have hfront : Closed front := by
        rw [Closed, Region.after_append] at h
        exact (Region.next_blank hblank).2 _ h
      have htrim : trimEnd isTrailingBlank (front ++ [c]) = trimEnd isTrailingBlank front :=
        List.rdropWhile_concat_pos isTrailingBlank front c hc
      rw [htrim, chunks_append_blank hfront hblank, chunks_nil, List.append_nil]
      exact ih hfront
    · rw [trimEnd_concat_of_not (by simpa using hc)]
      exact ⟨h, rfl⟩

theorem flatMap_chunks_trimEnd_isEmpty (parts : List (List Char)) :
    (trimEnd List.isEmpty parts).flatMap chunks = parts.flatMap chunks := by
  induction parts using List.reverseRecOn with
  | nil => rfl
  | append_singleton front line ih =>
    by_cases hline : line.isEmpty = true
    · have htrim : trimEnd List.isEmpty (front ++ [line]) = trimEnd List.isEmpty front :=
        List.rdropWhile_concat_pos List.isEmpty front line hline
      rw [htrim, ih, List.flatMap_append, List.isEmpty_iff.mp hline]
      simp [chunks_nil]
    · rw [trimEnd_concat_of_not (by simpa using hline)]

/-- Bringing a text into the form in which it is written leaves its chunks as they are. -/
theorem chunks_normalize {text : List Char} (h : Unbroken text) :
    chunks (Output.normalize text) = chunks text := by
  have hclosed := h.closed_of_mem_lines
  have hsignificant : ∀ line ∈ Output.significantLines text, Closed line := by
    intro line hline
    obtain ⟨whole, hwhole, rfl⟩ := List.mem_map.mp (mem_of_mem_trimEnd hline)
    exact (trimEnd_of_closed (hclosed whole hwhole)).1
  calc chunks (Output.normalize text)
      = chunks (unlines (Output.significantLines text)) :=
        (chunks_append_blank (closed_unlines hsignificant) (by decide) []).trans
          (List.append_nil _)
    _ = (Output.significantLines text).flatMap chunks := chunks_unlines hsignificant
    _ = ((lines text).map (trimEnd isTrailingBlank)).flatMap chunks :=
        flatMap_chunks_trimEnd_isEmpty _
    _ = (lines text).flatMap chunks := by
        rw [List.flatMap_map]
        exact List.flatMap_congr fun line hline => (trimEnd_of_closed (hclosed line hline)).2
    _ = chunks (unlines (lines text)) := (chunks_unlines hclosed).symm
    _ = chunks text := by rw [unlines_lines]

end OpenApiTypings.Text
