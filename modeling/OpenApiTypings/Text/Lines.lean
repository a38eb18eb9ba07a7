/-!
# Pieces of a text

A generated file is built line by line: nested types are moved to the right of
their parent, and trailing blanks are removed before a file is compared with the
one on disk.  This module cuts a text at its newlines, puts the lines together
again, takes known beginnings and ends away, and writes one `key: value;` line
group at an indentation.

Everything is stated on lists of characters, so that facts about lines are facts
about lists; the functions on `String` wrap them.
-/

namespace OpenApiTypings.Text

/-! ### Lines -/

/-- Puts one character in front of a list of pieces: a separator opens a new piece,
any other character joins the first one. -/
def consPiece (separator c : Char) (rest : List (List Char)) : List (List Char) :=
  if c = separator then [] :: rest
  else
    match rest with
    | [] => [[c]]
    | piece :: more => (c :: piece) :: more

/-- The pieces of a text, cut at every separator.  A text without a separator is one
piece, and a final separator is followed by one empty piece. -/
def cutAt (separator : Char) (text : List Char) : List (List Char) :=
  text.foldr (consPiece separator) [[]]

def lines (text : List Char) : List (List Char) :=
  cutAt '\n' text

def unlines (parts : List (List Char)) : List Char :=
  List.intercalate ['\n'] parts

/-- Moves the continuation lines of a text to the right by `indent`; the first
line stays where it is, behind its key. -/
def hang (indent : List Char) (text : List Char) : List Char :=
  match lines text with
  | [] => []
  | first :: rest => unlines (first :: rest.map (indent ++ ·))

/-- One field of an object type at an indentation.  The first line of the value stands
behind the key, the others stand below it at the indentation, and a semicolon ends the
last line. -/
def field (indent key value : String) : String :=
  let parts := (lines value.toList).map String.ofList
  let first := parts.headD ""
  let rest := parts.tail
  if rest.isEmpty then indent ++ key ++ ": " ++ first ++ ";\n"
  else
    let last := rest.length - 1
    indent ++ key ++ ": " ++ first ++ "\n" ++ String.join (rest.mapIdx fun i line =>
      if i = last then indent ++ line ++ ";\n" else indent ++ line ++ "\n")

/-! ### Beginnings and ends -/

/-- The text behind a beginning, if it begins so. -/
def dropHead? : List Char → List Char → Option (List Char)
  | [], text => some text
  | _ :: _, [] => none
  | h :: hs, c :: cs => if h = c then dropHead? hs cs else none

/-- The text before an end, if it ends so. -/
def dropTail? (tail text : List Char) : Option (List Char) :=
  (dropHead? tail.reverse text.reverse).map List.reverse

/-- The text behind the first occurrence of a mark, if it occurs. -/
def dropThrough? (mark : List Char) : List Char → Option (List Char)
  | [] => dropHead? mark []
  | c :: rest =>
      match dropHead? mark (c :: rest) with
      | some behind => some behind
      | none => dropThrough? mark rest

/-! ### Blanks -/

/-- Removes the longest suffix whose members satisfy `p`. -/
def trimEnd (p : α → Bool) (xs : List α) : List α :=
  (xs.reverse.dropWhile p).reverse

/-- A blank that may not end a line of a finished file. -/
def isTrailingBlank (c : Char) : Bool :=
  c = ' ' || c = '\t'

/-- The Unicode property `White_Space`. -/
def isBlank (c : Char) : Bool :=
  let n := c.toNat
  (0x9 ≤ n && n ≤ 0xD) || n = 0x20 || n = 0x85 || n = 0xA0 || n = 0x1680 ||
    (0x2000 ≤ n && n ≤ 0x200A) || n = 0x2028 || n = 0x2029 || n = 0x202F ||
    n = 0x205F || n = 0x3000

def allBlank (s : String) : Bool :=
  s.toList.all isBlank

end OpenApiTypings.Text
