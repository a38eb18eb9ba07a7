import OpenApiTypings.Yaml.Scalar.Quoted
import OpenApiTypings.Yaml.Token

/-!
# Anchors, tags and directives

Names that stand before a node or before a document: an anchor names a node for later
use, a tag names its kind, and a directive says what the handles of tags stand for.
-/

namespace OpenApiTypings.Yaml

/-! ### Anchors -/

/-- A character that may follow the name of an anchor directly. -/
def endsAnchor (c : Char) : Bool :=
  isGap c || "?:,]\x7d%@\x60".toList.contains c

def readAnchorName (pos : Cursor) : Except Fault (String × Cursor) :=
  let (name, after) := (pos.advance 1).takeWhile isWordChar
  if name.isEmpty || !(after.rest.isEmpty || after.peek?.any endsAnchor) then
    .error .badToken
  else .ok (String.ofList name, after)

/-! ### Tags -/

/-- A character of a tag; between angle brackets there are more. -/
def isTagChar (bracketed : Bool) (c : Char) : Bool :=
  isWordChar c || ";/?:@&=+$.%!~*'()".toList.contains c ||
    (bracketed && (c = ',' || c = '[' || c = ']'))

/-- One byte that is written as a percent sign and two hexadecimal digits. -/
def percentByte? : List Char → Option (UInt8 × List Char)
  | '%' :: a :: b :: rest => (hexValue? [a, b]).map fun n => (UInt8.ofNat n, rest)
  | _ => none

/-- Further bytes of a character, each of which begins with the bits `10`.  Newest
first, before them those already read. -/
def percentTail? : Nat → List UInt8 → List Char → Option (List UInt8 × List Char)
  | 0, acc, text => some (acc, text)
  | more + 1, acc, text => do
      let (byte, rest) ← percentByte? text
      if byte / 64 = 2 then percentTail? more (byte :: acc) rest else none

/-- How many further bytes the first byte of a character announces. -/
def furtherBytes? (byte : UInt8) : Option Nat :=
  if byte / 128 = 0 then some 0
  else if byte / 32 = 6 then some 1
  else if byte / 16 = 14 then some 2
  else if byte / 8 = 30 then some 3
  else none

/-- The bytes of a character written with percent signs, newest first, before those
already read.  Nothing but their number is looked at: they need be no character. -/
def percentBytes? (acc : List UInt8) (text : List Char) :
    Option (List UInt8 × List Char) := do
  let (byte, rest) ← percentByte? text
  percentTail? (← furtherBytes? byte) (byte :: acc) rest

def readTagBytesFrom (bracketed : Bool) :
    Nat → List UInt8 → Cursor → Except Fault (List UInt8 × Cursor)
  | 0, acc, pos => .ok (acc, pos)
  | bound + 1, acc, pos =>
      match pos.rest with
      | [] => .ok (acc, pos)
      | c :: _ =>
          if !isTagChar bracketed c then .ok (acc, pos)
          else if c = '%' then
            match percentBytes? acc pos.rest with
            | none => .error .badToken
            | some (bytes, after) =>
                readTagBytesFrom bracketed bound bytes
                  (pos.advance (pos.rest.length - after.length))
          else readTagBytesFrom bracketed bound (c.toUInt8 :: acc) (pos.advance 1)

/-- The bytes of a tag from here on.  All characters of a tag are of one byte. -/
def readTagBytes (bracketed : Bool) (pos : Cursor) :
    Except Fault (List UInt8 × Cursor) := do
  let (bytes, after) ← readTagBytesFrom bracketed (pos.size + 1) [] pos
  return (bytes.reverse, after)

/-- The exclamation mark here with the name behind it, and with a second mark if the
name ends in one.  Says whether there is a second mark. -/
def readHandle (pos : Cursor) : Except Fault (String × Bool × Cursor) :=
  match pos.rest with
  | '!' :: _ =>
      let (name, after) := (pos.advance 1).takeWhile isWordChar
      let closed := after.peek? = some '!'
      let text := '!' :: name ++ (if closed then ['!'] else [])
      .ok (String.ofList text, closed, if closed then after.advance 1 else after)
  | _ => .error .badToken

/-- A tag without the check of what follows it. -/
def readBareTag (pos : Cursor) : Except Fault (Token × Cursor) :=
  match pos.rest with
  | '!' :: '<' :: _ => do
      let (bytes, after) ← readTagBytes true (pos.advance 2)
      if bytes.isEmpty || after.peek? ≠ some '>' then .error .badToken
      else return (.tag "" (.ofBytes bytes), after.advance 1)
  | _ => do
      let (handle, closed, afterHandle) ← readHandle pos
      let (bytes, after) ← readTagBytes false afterHandle
      if closed then
        if bytes.isEmpty then .error .badToken
        else return (.tag handle (.ofBytes bytes), after)
      else
        let name := Tag.ofText (String.ofList (handle.toList.drop 1))
        let suffix := name.append (.ofBytes bytes)
        return (if suffix.isEmpty then .tag "" (.ofText "!") else .tag "!" suffix, after)

/-- A tag, from its indicator on.  A blank or a line end follows it, or in a flow
collection a comma. -/
def readTag (inFlow : Bool) (pos : Cursor) : Except Fault (Token × Cursor) := do
  let (tag, after) ← readBareTag pos
  if after.gapAt 0 || (inFlow && after.peek? = some ',') then return (tag, after)
  else .error .badToken

/-! ### Directives -/

def skipBlanks (pos : Cursor) : Cursor := (pos.takeWhile isBlank).2

/-- The number of a version: one to nine digits. -/
def readVersionNumber (pos : Cursor) : Except Fault (Nat × Cursor) :=
  let (digits, after) := pos.takeWhile Char.isDigit
  if digits.isEmpty || 9 < digits.length then .error .badToken
  else .ok (digits.foldl (fun n c => n * 10 + (c.toNat - 0x30)) 0, after)

def readVersion (pos : Cursor) : Except Fault (Token × Cursor) := do
  let (major, after) ← readVersionNumber (skipBlanks pos)
  if after.peek? ≠ some '.' then .error .badToken
  else
    let (minor, last) ← readVersionNumber (after.advance 1)
    return (.versionDirective major minor, last)

def readTagDirective (pos : Cursor) : Except Fault (Token × Cursor) := do
  let (handle, closed, after) ← readHandle (skipBlanks pos)
  if (!closed && handle ≠ "!") || !(after.peek?.any isBlank) then .error .badToken
  else
    let (bytes, last) ← readTagBytes true (skipBlanks after)
    if bytes.isEmpty || !last.gapAt 0 then .error .badToken
    else return (.tagDirective handle (.ofBytes bytes), last)

def readDirective (pos : Cursor) : Except Fault (Token × Cursor) := do
  let (name, afterName) := (pos.advance 1).takeWhile isWordChar
  if name.isEmpty || !afterName.gapAt 0 then .error .badToken
  else
    let (directive, after) ←
      if name = "YAML".toList then readVersion afterName
      else if name = "TAG".toList then readTagDirective afterName
      else .error .badToken
    let blanks := skipBlanks after
    let last :=
      if blanks.peek? = some '#' then (blanks.takeWhile (!isBreak ·)).2 else blanks
    if last.rest.isEmpty || last.peek?.any isBreak then
      return (directive, last.takeBreak.2)
    else .error .badToken

end OpenApiTypings.Yaml
