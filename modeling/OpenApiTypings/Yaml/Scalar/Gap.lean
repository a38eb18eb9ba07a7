import OpenApiTypings.Yaml.Cursor

/-!
# White space inside scalars

Between two words of a quoted or plain scalar there may be blanks, or line ends with
blanks around them.  Blanks stand for themselves.  Line ends are folded: a single one
is a space, and of several the first one is dropped.
-/

namespace OpenApiTypings.Yaml

/-- White space between two words: the blanks before the first line end, and the
texts of the line ends. -/
structure Gap where
  blanks : List Char := []
  breaks : List (List Char) := []
  deriving DecidableEq, Repr

namespace Gap

def isBroken (gap : Gap) : Bool := !gap.breaks.isEmpty

/-- Line ends folded to the text they stand for.  Separators of lines and paragraphs
are kept. -/
def fold : List (List Char) → List Char
  | [] => []
  | first :: more =>
      if first = ['\n'] then if more.isEmpty then [' '] else more.flatten
      else first ++ more.flatten

def text (gap : Gap) : List Char :=
  if gap.isBroken then fold gap.breaks else gap.blanks

end Gap

/-- Past the gap that stands here.  A tab may not come before the column `indent` of
a further line. -/
def readGap (indent : Nat) : Nat → Gap → Cursor → Except Fault (Gap × Cursor)
  | 0, gap, pos => .ok (gap, pos)
  | bound + 1, gap, pos =>
      match pos.rest with
      | [] => .ok (gap, pos)
      | c :: _ =>
          if isBlank c then
            if !gap.isBroken then
              readGap indent bound { gap with blanks := gap.blanks ++ [c] } (pos.advance 1)
            else if c = '\t' && pos.column < indent then .error .badToken
            else readGap indent bound gap (pos.advance 1)
          else if isBreak c then
            let (text, next) := pos.takeBreak
            readGap indent bound { gap with breaks := gap.breaks ++ [text] } next
          else .ok (gap, pos)

end OpenApiTypings.Yaml
