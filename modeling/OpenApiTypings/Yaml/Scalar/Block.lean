import OpenApiTypings.Yaml.Cursor

/-!
# Block scalars

A block scalar is made of the lines below its header that are indented more than the
collection around it.  A literal one keeps its line ends; in a folded one, a line end
between two lines that start without a blank is a space.  The header may give the
indentation, and says what becomes of the line ends at the end.
-/

namespace OpenApiTypings.Yaml

/-- What becomes of the line ends at the end of a block scalar. -/
inductive Chomping where
  | strip
  | clip
  | keep
  deriving DecidableEq, Repr

structure BlockHeader where
  chomping : Chomping := .clip
  /-- How much more than the collection around it the scalar is indented. -/
  increment : Option Nat := none
  deriving DecidableEq, Repr

namespace BlockHeader

/-- Takes one indicator of the header into account, if it is one that has not been
given yet. -/
def add? (header : BlockHeader) (chompingGiven : Bool) (c : Char) : Option BlockHeader :=
  if c = '+' && !chompingGiven then some { header with chomping := .keep }
  else if c = '-' && !chompingGiven then some { header with chomping := .strip }
  else if c.isDigit && header.increment.isNone then
    some { header with increment := some (c.toNat - 0x30) }
  else none

end BlockHeader

/-- The header behind the letter of a block scalar, with at most one indicator of
each kind, up to the end of its line. -/
def readBlockHeader (pos : Cursor) : Except Fault (BlockHeader × Cursor) :=
  let step (state : BlockHeader × Bool × Cursor) : BlockHeader × Bool × Cursor :=
    let (header, chompingGiven, here) := state
    match here.peek?.bind fun c => (header.add? chompingGiven c).map fun h => (h, c) with
    | some (extended, c) => (extended, chompingGiven || !c.isDigit, here.advance 1)
    | none => state
  let (header, _, here) := step (step ({}, false, pos))
  let blanks := (here.takeWhile isBlank).2
  let after :=
    if blanks.peek? = some '#' then (blanks.takeWhile (!isBreak ·)).2 else blanks
  if header.increment = some 0 then .error .badToken
  else if !after.rest.isEmpty && !(after.peek?.any isBreak) then .error .badToken
  else .ok (header, after.takeBreak.2)

/-- Past lines without content and the indentation of the first line with content.
`indent` is zero while it is not known.  Gives the widest indentation seen and the
texts of the line ends. -/
def readEmptyLines (indent : Nat) :
    Nat → Nat → List Char → Cursor → Except Fault (Nat × List Char × Cursor)
  | 0, widest, breaks, pos => .ok (widest, breaks, pos)
  | bound + 1, widest, breaks, pos =>
      let blanks := (pos.rest.takeWhile (· = ' ')).length
      let width := if indent = 0 then blanks else min blanks (indent - pos.column)
      let here := pos.advance width
      let widest := max widest here.column
      match here.rest with
      | [] => .ok (widest, breaks, here)
      | c :: _ =>
          if c = '\t' && (indent = 0 || here.column < indent) then .error .badToken
          else if isBreak c then
            let (text, next) := here.takeBreak
            readEmptyLines indent bound widest (breaks ++ text) next
          else .ok (widest, breaks, here)

/-- What has been read of a block scalar: its characters, newest first, the last line
end, and the line ends of the empty lines behind that. -/
structure BlockRead where
  chars : List Char := []
  lastBreak : List Char := []
  emptyLines : List Char := []
  /-- The last line starts with a blank. -/
  indented : Bool := false

def BlockRead.join (folded : Bool) (read : BlockRead) (startsBlank : Bool) : List Char :=
  if folded && read.lastBreak = ['\n'] && !read.indented && !startsBlank then
    if read.emptyLines.isEmpty then [' '] else read.emptyLines
  else read.lastBreak ++ read.emptyLines

def readBlockLines (folded : Bool) (indent : Nat) :
    Nat → BlockRead → Cursor → Except Fault (BlockRead × Cursor)
  | 0, read, pos => .ok (read, pos)
  | bound + 1, read, pos =>
      match pos.rest with
      | [] => .ok (read, pos)
      | c :: _ =>
          if pos.column ≠ indent then .ok (read, pos)
          else do
            let (line, lineEnd) := pos.takeWhile (!isBreak ·)
            let (text, start) := lineEnd.takeBreak
            let (_, breaks, next) ←
              readEmptyLines indent (start.size + 1) 0 [] start
            let chars :=
              line.reverse ++ ((read.join folded (isBlank c)).reverse ++ read.chars)
            readBlockLines folded indent bound ⟨chars, text, breaks, isBlank c⟩ next

/-- A block scalar inside a collection with an indentation, from its letter on. -/
def readBlock (folded : Bool) (parent : Int) (pos : Cursor) :
    Except Fault (String × Cursor) := do
  let (header, start) ← readBlockHeader (pos.advance 1)
  let given :=
    match header.increment with
    | none => 0
    | some n => parent.toNat + n
  let (widest, breaks, first) ←
    readEmptyLines given (start.size + 1) 0 [] start
  let indent := if given = 0 then max (max widest (parent + 1).toNat) 1 else given
  let (read, next) ←
    readBlockLines folded indent (first.size + 1) { emptyLines := breaks } first
  let tail :=
    match header.chomping with
    | .strip => []
    | .clip => read.lastBreak
    | .keep => read.lastBreak ++ read.emptyLines
  return (String.ofList (read.chars.reverse ++ tail), next)

end OpenApiTypings.Yaml
