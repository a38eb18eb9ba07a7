import OpenApiTypings.Yaml.Scalar.Gap

/-!
# Plain scalars

A scalar without quotes goes on over blanks and line ends until a colon with white
space behind it, a comment, a document marker, or, inside flow collections, one of
their indicators.  Outside of them it also ends before a line that is not indented
more than the collection around it.
-/

namespace OpenApiTypings.Yaml

def isFlowIndicator (c : Char) : Bool :=
  c = ',' || c = '[' || c = ']' || c = '\x7b' || c = '\x7d'

/-- A word of a plain scalar, newest character first.  Inside flow collections a
colon may not stand directly before an indicator. -/
def readPlainWord (inFlow : Bool) :
    List Char → List Char → Except Fault (List Char × List Char)
  | acc, [] => .ok (acc, [])
  | acc, c :: rest =>
      let endsAfter :=
        match rest with
        | [] => true
        | d :: _ => isGap d
      let beforeIndicator :=
        match rest with
        | [] => false
        | d :: _ => isFlowIndicator d || d = '?'
      if isGap c then .ok (acc, c :: rest)
      else if inFlow && c = ':' && beforeIndicator then .error .badToken
      else if (c = ':' && endsAfter) || (inFlow && isFlowIndicator c) then
        .ok (acc, c :: rest)
      else readPlainWord inFlow (c :: acc) rest

/-- What has been read of a plain scalar: its characters, newest first, and whether
a line has ended behind them. -/
structure PlainRead where
  chars : List Char
  broken : Bool
  next : Cursor

/-- The words of a plain scalar, from a place on with a gap before it. -/
def readPlainWords (inFlow : Bool) (indent : Nat) :
    Nat → List Char → Gap → Cursor → Except Fault PlainRead
  | 0, acc, gap, pos => .ok ⟨acc, gap.isBroken, pos⟩
  | bound + 1, acc, gap, pos =>
      if pos.atDocumentMarker || pos.peek? = some '#' then .ok ⟨acc, gap.isBroken, pos⟩
      else do
        let (word, _) ← readPlainWord inFlow [] pos.rest
        if word.isEmpty then return ⟨acc, gap.isBroken, pos⟩
        else
          let chars := word ++ (gap.text.reverse ++ acc)
          let after := pos.advance word.length
          let (behind, next) ← readGap indent (after.size + 1) {} after
          if next.index = after.index then return ⟨chars, false, after⟩
          else if !inFlow && next.column < indent then
            return ⟨chars, behind.isBroken, next⟩
          else readPlainWords inFlow indent bound chars behind next

/-- A plain scalar whose further lines are indented by `indent` at least, and whether
a line has ended behind it. -/
def readPlain (inFlow : Bool) (indent : Nat) (pos : Cursor) :
    Except Fault (String × Bool × Cursor) := do
  let read ← readPlainWords inFlow indent (pos.size + 1) [] {} pos
  return (String.ofList read.chars.reverse, read.broken, read.next)

end OpenApiTypings.Yaml
