import OpenApiTypings.Yaml.Fault

/-!
# Places in a YAML source

Indentation and line ends carry meaning in YAML, so a reader keeps, beside the
characters still to be read, the line and the column they stand in.  Columns count
characters, and several characters end a line.
-/

namespace OpenApiTypings.Yaml

/-! ### Classes of characters -/

def isBreak (c : Char) : Bool :=
  c = '\n' || c = '\r' || c.toNat = 0x85 || c.toNat = 0x2028 || c.toNat = 0x2029

def isBlank (c : Char) : Bool :=
  c = ' ' || c = '\t'

def isGap (c : Char) : Bool :=
  isBlank c || isBreak c

/-- A character of the names of anchors, tag handles and directives. -/
def isWordChar (c : Char) : Bool :=
  c.isAlphanum || c = '_' || c = '-'

def isMark (c : Char) : Bool := c.toNat = 0xFEFF

/-- A character that a source may hold: printable ones, tabs, line ends and
byte-order marks. -/
def isAllowed (c : Char) : Bool :=
  let n := c.toNat
  n = 0x9 || n = 0xA || n = 0xD || (0x20 ≤ n && n ≤ 0x7E) || n = 0x85 ||
    (0xA0 ≤ n && n ≤ 0xD7FF) || (0xE000 ≤ n && n ≤ 0xFFFD) || 0x10000 ≤ n

/-! ### The cursor -/

/-- The characters still to be read, with the line and the column of the first of
them and the number of bytes before it.  The number of characters of the whole
source bounds every walk through it. -/
structure Cursor where
  rest : List Char
  size : Nat
  line : Nat := 0
  column : Nat := 0
  index : Nat := 0
  deriving DecidableEq, Repr

namespace Cursor

def width (pos : Cursor) (n : Nat) : Nat :=
  (pos.rest.take n).foldl (fun bytes c => bytes + c.utf8Size) 0

def advance (pos : Cursor) (n : Nat) : Cursor :=
  { pos with
    rest := pos.rest.drop n, column := pos.column + n, index := pos.index + pos.width n }

/-- Past the longest run of characters of a class, with the run.  The class holds
no character that ends a line. -/
def takeWhile (pos : Cursor) (p : Char → Bool) : List Char × Cursor :=
  let run := pos.rest.takeWhile p
  (run, pos.advance run.length)

def startLine (pos : Cursor) (n : Nat) : Cursor :=
  { pos with
    rest := pos.rest.drop n, line := pos.line + 1, column := 0,
    index := pos.index + pos.width n }

def ofSource (chars : List Char) : Cursor :=
  { rest := chars, size := chars.length }

/-- Past the end of a line, with the text it stands for: a separator of lines or
paragraphs stands for itself, all other line ends for a newline. -/
def takeBreak (pos : Cursor) : List Char × Cursor :=
  match pos.rest with
  | '\r' :: '\n' :: _ => (['\n'], pos.startLine 2)
  | c :: _ =>
      if isBreak c then
        (if c.toNat = 0x2028 || c.toNat = 0x2029 then [c] else ['\n'], pos.startLine 1)
      else ([], pos)
  | [] => ([], pos)

def peek? (pos : Cursor) : Option Char := pos.rest.head?

/-- The character `n` places on is a blank or a line end, or the text ends there. -/
def gapAt (pos : Cursor) (n : Nat) : Bool :=
  match pos.rest.drop n with
  | [] => true
  | c :: _ => isGap c

/-- A line starts here with a word of its own. -/
def startsLineWith (pos : Cursor) (word : String) : Bool :=
  pos.column = 0 && word.toList.isPrefixOf pos.rest && pos.gapAt word.length

def atDocumentMarker (pos : Cursor) : Bool :=
  pos.startsLineWith "---" || pos.startsLineWith "..."

end Cursor

/-! ### Comments and empty lines -/

/-- Past a byte-order mark at the start of a line.  Like a blank it takes a column, so
what follows it no longer stands at the start. -/
def Cursor.skipMark (pos : Cursor) : Cursor :=
  if pos.column = 0 && pos.peek?.any isMark then pos.advance 1 else pos

/-- Past blanks, comments, line ends and marks at the start of a line.  A tab counts as
a blank only where no key can start, and the start of a line lets a key start again; in
flow collections, `anywhere`, tabs are always blanks. -/
def skipToToken (anywhere : Bool) : Nat → Bool → Cursor → Bool × Cursor
  | 0, keyAllowed, pos => (keyAllowed, pos)
  | bound + 1, keyAllowed, pos =>
      let blank (c : Char) := c = ' ' || (c = '\t' && (anywhere || !keyAllowed))
      let (_, first) := pos.skipMark.takeWhile blank
      let next :=
        if first.peek? = some '#' then (first.takeWhile (!isBreak ·)).2 else first
      match next.rest with
      | c :: _ =>
          if isBreak c then
            skipToToken anywhere bound (keyAllowed || !anywhere) next.takeBreak.2
          else (keyAllowed, next)
      | [] => (keyAllowed, next)

end OpenApiTypings.Yaml
