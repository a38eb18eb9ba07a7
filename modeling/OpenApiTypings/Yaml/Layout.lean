import OpenApiTypings.Yaml.Property
import OpenApiTypings.Yaml.Scalar.Block
import OpenApiTypings.Yaml.Scalar.Plain

/-!
# From a text to tokens

The layout of a source is read from left to right.  Block collections are opened by a
token that stands further right than the collection around it, and closed by one that
stands further left.

A key is recognised only when the colon behind it is reached.  Until then the place
of a token that might start one is kept as a *candidate*, one for each level of flow
collections.  A candidate must be on the line of its colon and near it; one that
stands at the indentation of a block mapping cannot be anything but a key.
-/

namespace OpenApiTypings.Yaml

structure Candidate where
  /-- It can be nothing else. -/
  required : Bool
  /-- The number of tokens before it. -/
  tokens : Nat
  line : Nat
  column : Nat
  index : Nat
  deriving DecidableEq, Repr

/-- How many bytes there may be between the start of a key and its colon. -/
def maxKeyLength : Nat := 1024

structure Layout where
  pos : Cursor
  /-- The column of the innermost block collection; `-1` outside of all. -/
  indent : Int := -1
  /-- The columns of the block collections around it. -/
  outerIndents : List Int := []
  /-- A key may start here. -/
  keyAllowed : Bool := true
  /-- The candidate of the innermost flow collection, or outside of all. -/
  candidate : Option Candidate := none
  /-- The candidates around it, one for each flow collection. -/
  outerCandidates : List (Option Candidate) := []
  /-- The tokens, newest first, and how many there are. -/
  tokens : List Token := []
  count : Nat := 0

namespace Layout

def inFlow (s : Layout) : Bool := !s.outerCandidates.isEmpty

def push (s : Layout) (t : Token) : Layout :=
  { s with tokens := t :: s.tokens, count := s.count + 1 }

def insertAt (s : Layout) (n : Nat) (t : Token) : Layout :=
  let newer := s.count - n
  { s with
    tokens := s.tokens.take newer ++ t :: s.tokens.drop newer, count := s.count + 1 }

def advance (s : Layout) (n : Nat) : Layout := { s with pos := s.pos.advance n }

/-! ### Candidates -/

/-- Forgets a candidate, which is a fault if it must be a key. -/
def dropCandidate : Option Candidate → Except Fault (Option Candidate)
  | some c => if c.required then .error .badToken else .ok none
  | none => .ok none

/-- The candidate is on an earlier line or too far back. -/
def Candidate.isStale (c : Candidate) (pos : Cursor) : Bool :=
  c.line < pos.line || c.index + maxKeyLength < pos.index

def refresh (pos : Cursor) : Option Candidate → Except Fault (Option Candidate)
  | some c => if Candidate.isStale c pos then dropCandidate (some c) else .ok (some c)
  | none => .ok none

def refreshAll (s : Layout) : Except Fault Layout := do
  let candidate ← refresh s.pos s.candidate
  let outerCandidates ← s.outerCandidates.mapM (refresh s.pos)
  return { s with candidate, outerCandidates }

def clearCandidate (s : Layout) : Except Fault Layout := do
  return { s with candidate := ← dropCandidate s.candidate }

/-- Keeps the next token as a candidate, if a key may start here. -/
def markCandidate (s : Layout) : Except Fault Layout :=
  if !s.keyAllowed then .ok s
  else do
    let cleared ← s.clearCandidate
    let required := !s.inFlow && s.indent = s.pos.column
    return { cleared with
      candidate := some ⟨required, s.count, s.pos.line, s.pos.column, s.pos.index⟩ }

/-! ### Block collections -/

/-- Opens a block collection behind the first `n` tokens, if the column lies further
right than the collection around it. -/
def openBlock (s : Layout) (column n : Nat) (start : Token) : Layout :=
  if !s.inFlow && s.indent < column then
    { s.insertAt n start with
      indent := column, outerIndents := s.indent :: s.outerIndents }
  else s

/-- Closes the block collections further right than a column. -/
def closeBlocksAbove (column : Int) (indent : Int) :
    List Int → Layout → Layout
  | [], s => { s with indent, outerIndents := [] }
  | outer :: more, s =>
      if column < indent then closeBlocksAbove column outer more (s.push .blockEnd)
      else { s with indent, outerIndents := outer :: more }

def closeBlocks (s : Layout) (column : Int) : Layout :=
  if s.inFlow then s else closeBlocksAbove column s.indent s.outerIndents s

/-! ### Tokens -/

/-- A scalar, anchor or tag, which may start a key and lets none start behind it. -/
def atom (s : Layout) (t : Token) (next : Cursor) : Except Fault Layout := do
  let marked ← s.markCandidate
  return { marked.push t with pos := next, keyAllowed := false }

def openFlow (s : Layout) (t : Token) : Except Fault Layout := do
  let marked ← s.markCandidate
  return { (marked.push t).advance 1 with
    candidate := none, outerCandidates := marked.candidate :: marked.outerCandidates,
    keyAllowed := true }

def closeFlow (s : Layout) (t : Token) : Except Fault Layout := do
  let cleared ← s.clearCandidate
  let closed :=
    match cleared.outerCandidates with
    | [] => cleared
    | candidate :: outerCandidates => { cleared with candidate, outerCandidates }
  return { (closed.push t).advance 1 with keyAllowed := false }

def comma (s : Layout) : Except Fault Layout := do
  let cleared ← s.clearCandidate
  return { (cleared.push .flowEntry).advance 1 with keyAllowed := true }

/-- A marker that opens an entry or a key of a block collection, or stands in a flow
collection. -/
def marker (s : Layout) (start t : Token) (keyBehind : Bool) : Except Fault Layout :=
  if !s.inFlow && !s.keyAllowed then .error .badToken
  else do
    let opened := s.openBlock s.pos.column s.count start
    let cleared ← opened.clearCandidate
    return { (cleared.push t).advance 1 with keyAllowed := keyBehind }

/-- A colon, behind the key that it shows or behind one that has been marked. -/
def colon (s : Layout) : Except Fault Layout :=
  match s.candidate with
  | some c =>
      let keyed := (s.insertAt c.tokens .key).openBlock c.column c.tokens .blockMappingStart
      .ok { (keyed.push .value).advance 1 with candidate := none, keyAllowed := false }
  | none =>
      if !s.inFlow && !s.keyAllowed then .error .badToken
      else
        let opened := s.openBlock s.pos.column s.count .blockMappingStart
        .ok { (opened.push .value).advance 1 with keyAllowed := !s.inFlow }

/-- A token that stands between documents and closes all block collections. -/
def betweenDocuments (s : Layout) (t : Token) (next : Cursor) : Except Fault Layout := do
  let cleared ← (s.closeBlocks (-1)).clearCandidate
  return { cleared.push t with pos := next, keyAllowed := false }

def blockScalar (s : Layout) (folded : Bool) : Except Fault Layout := do
  let cleared ← s.clearCandidate
  let (text, next) ← readBlock folded s.indent s.pos
  return { cleared.push (.scalar text false) with pos := next, keyAllowed := true }

def quotedScalar (s : Layout) (double : Bool) : Except Fault Layout := do
  let (text, next) ← readQuoted double s.pos
  s.atom (.scalar text false) next

/-- A plain scalar.  If a line has ended behind it, a key may start there. -/
def plainScalar (s : Layout) : Except Fault Layout := do
  let (text, broken, next) ← readPlain s.inFlow (s.indent + 1).toNat s.pos
  let read ← s.atom (.scalar text true) next
  return { read with keyAllowed := broken }

def startsPlain (s : Layout) (c : Char) : Bool :=
  if c = '-' then !((s.pos.advance 1).peek?.any isBlank)
  else if c = '?' || c = ':' then !s.inFlow && !s.pos.gapAt 1
  else !(isGap c || isFlowIndicator c || "#&*!|>'\"%@\x60".toList.contains c)

def takeToken (s : Layout) (c : Char) : Except Fault Layout :=
  let inFlow := s.inFlow
  if s.pos.column = 0 && c = '%' then do
    let (t, next) ← readDirective s.pos
    s.betweenDocuments t next
  else if s.pos.startsLineWith "---" then
    s.betweenDocuments .documentStart (s.pos.advance 3)
  else if s.pos.startsLineWith "..." then
    s.betweenDocuments .documentEnd (s.pos.advance 3)
  else if c = '[' then s.openFlow .flowSequenceStart
  else if c = '\x7b' then s.openFlow .flowMappingStart
  else if c = ']' then s.closeFlow .flowSequenceEnd
  else if c = '\x7d' then s.closeFlow .flowMappingEnd
  else if c = ',' then s.comma
  else if c = '-' && s.pos.gapAt 1 then s.marker .blockSequenceStart .blockEntry true
  else if c = '?' && (inFlow || s.pos.gapAt 1) then
    s.marker .blockMappingStart .key (!inFlow)
  else if c = ':' && (inFlow || s.pos.gapAt 1) then s.colon
  else if c = '*' then do
    let (name, next) ← readAnchorName s.pos
    s.atom (.reference name) next
  else if c = '&' then do
    let (name, next) ← readAnchorName s.pos
    s.atom (.anchor name) next
  else if c = '!' then do
    let (t, next) ← readTag inFlow s.pos
    s.atom t next
  else if c = '|' && !inFlow then s.blockScalar false
  else if c = '>' && !inFlow then s.blockScalar true
  else if c = '\'' then s.quotedScalar false
  else if c = '"' then s.quotedScalar true
  else if s.startsPlain c then s.plainScalar
  else .error .badToken

/-- The end of the source, which closes all that is open. -/
def finish (s : Layout) : Except Fault Layout := do
  let cleared ← (s.closeBlocks (-1)).clearCandidate
  return cleared.push .sourceEnd

/-- The tokens from here on.  Every token takes at least one character, so the number
of characters bounds the number of tokens. -/
def run : Nat → Layout → Except Fault Layout
  | 0, _ => .error .badToken
  | bound + 1, s => do
      let (keyAllowed, pos) :=
        skipToToken s.inFlow (s.pos.size + 1) s.keyAllowed s.pos
      let here ← { s with keyAllowed, pos }.refreshAll
      match pos.rest with
      | [] => here.finish
      | c :: _ => run bound (← (here.closeBlocks pos.column).takeToken c)

end Layout

def Token.ofText (source : String) : Except Fault (List Token) :=
  let chars := source.toList
  if !chars.all isAllowed then .error .forbiddenCharacter
  else do
    let s ← Layout.run (chars.length + 1) { pos := .ofSource chars }
    return s.tokens.reverse

end OpenApiTypings.Yaml
