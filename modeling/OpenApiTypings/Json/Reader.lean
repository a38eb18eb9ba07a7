import OpenApiTypings.Json.Basic

/-!
# Reading JSON text

The reader follows the grammar of JSON strictly and says of a fault what it is and
where it stands, by line and column.  A column counts bytes of the UTF-8 text.
Numbers are integers where they fit 64 bits, with or without sign, and binary
floating-point numbers otherwise.  A repeated key keeps its last value.

Faults are found in reading order, so the reader is one pass over the characters
with the number of bytes read beside them.
-/

namespace OpenApiTypings.Json

/-! ### Faults -/

inductive SyntaxCause where
  | endInList
  | endInObject
  | endInString
  | endInValue
  | expectedColon
  | expectedListCommaOrEnd
  | expectedObjectCommaOrEnd
  | expectedIdent
  | expectedValue
  | invalidEscape
  | invalidNumber
  | numberOutOfRange
  | controlCharacter
  | keyMustBeString
  | loneSurrogate
  | trailingComma
  | trailingCharacters
  | unexpectedEndOfEscape
  | tooDeep
  deriving DecidableEq, Repr

def SyntaxCause.message : SyntaxCause → String
  | .endInList => "EOF while parsing a list"
  | .endInObject => "EOF while parsing an object"
  | .endInString => "EOF while parsing a string"
  | .endInValue => "EOF while parsing a value"
  | .expectedColon => "expected `:`"
  | .expectedListCommaOrEnd => "expected `,` or `]`"
  | .expectedObjectCommaOrEnd => "expected `,` or `\x7d`"
  | .expectedIdent => "expected ident"
  | .expectedValue => "expected value"
  | .invalidEscape => "invalid escape"
  | .invalidNumber => "invalid number"
  | .numberOutOfRange => "number out of range"
  | .controlCharacter =>
      "control character (\\u0000-\\u001F) found while parsing a string"
  | .keyMustBeString => "key must be a string"
  | .loneSurrogate => "lone leading surrogate in hex escape"
  | .trailingComma => "trailing comma"
  | .trailingCharacters => "trailing characters"
  | .unexpectedEndOfEscape => "unexpected end of hex escape"
  | .tooDeep => "recursion limit exceeded"

structure SyntaxError where
  cause : SyntaxCause
  line : Nat
  column : Nat
  deriving DecidableEq, Repr

def SyntaxError.message (e : SyntaxError) : String :=
  e.cause.message ++ " at line " ++ toString e.line ++ " column " ++ toString e.column

/-- A cause at a number of bytes from the start of the text. -/
structure Fault where
  cause : SyntaxCause
  offset : Nat
  deriving DecidableEq, Repr

/-- Line and column after `offset` bytes, from the line and column before them. -/
def placeAfter : Nat → Nat → Nat → List Char → Nat × Nat
  | line, column, _, [] => (line, column)
  | line, column, offset, c :: rest =>
      if offset = 0 then (line, column)
      else if offset < c.utf8Size then (line, column + offset)
      else if c = '\n' then placeAfter (line + 1) 0 (offset - 1) rest
      else placeAfter line (column + c.utf8Size) (offset - c.utf8Size) rest

def Fault.locate (source : String) (fault : Fault) : SyntaxError :=
  let place := placeAfter 1 0 fault.offset source.toList
  ⟨fault.cause, place.1, place.2⟩

/-! ### The cursor -/

/-- The characters still to be read and the number of bytes before them. -/
structure Cursor where
  rest : List Char
  offset : Nat
  deriving DecidableEq, Repr

namespace Cursor

/-- A fault at the bytes read so far. -/
def fail (pos : Cursor) (cause : SyntaxCause) : Except Fault α :=
  .error ⟨cause, pos.offset⟩

/-- A fault at the next byte, or at the end of the text if there is none. -/
def failNext (pos : Cursor) (cause : SyntaxCause) : Except Fault α :=
  match pos.rest with
  | [] => .error ⟨cause, pos.offset⟩
  | _ :: _ => .error ⟨cause, pos.offset + 1⟩

/-- Past the next character, which is the first of `rest`. -/
def advance (pos : Cursor) : Cursor :=
  match pos.rest with
  | [] => pos
  | c :: rest => ⟨rest, pos.offset + c.utf8Size⟩

end Cursor

def isSpace (c : Char) : Bool :=
  c = ' ' || c = '\n' || c = '\t' || c = '\r'

/-- Past white space, all of which takes one byte a character. -/
def skipSpace (pos : Cursor) : Cursor :=
  let width := (pos.rest.takeWhile isSpace).length
  ⟨pos.rest.drop width, pos.offset + width⟩

/-! ### Words and numbers -/

/-- The remaining characters of a word whose first one has been read. -/
def readWord (value : Json) : List Char → Cursor → Except Fault (Json × Cursor)
  | [], pos => .ok (value, pos)
  | expected :: more, pos =>
      match pos.rest with
      | [] => pos.fail .endInValue
      | c :: _ =>
          if c = expected then readWord value more pos.advance
          else .error ⟨.expectedIdent, pos.offset + 1⟩

def digitValue (c : Char) : Nat :=
  c.toNat - 0x30

def readDigits (pos : Cursor) : List Char × Cursor :=
  let digits := pos.rest.takeWhile Char.isDigit
  (digits, ⟨pos.rest.drop digits.length, pos.offset + digits.length⟩)

/-- The largest significand that is kept digit by digit. -/
def maxSignificand : Nat := Nat.pow 2 64 - 1

/-- Appends digits to a significand for as long as it stays within bounds; the
digits that did not fit are counted. -/
def absorbDigits : Nat → List Char → Nat × Nat
  | significand, [] => (significand, 0)
  | significand, c :: rest =>
      let next := significand * 10 + digitValue c
      if maxSignificand < next then (significand, rest.length + 1)
      else absorbDigits next rest

/-- The largest exponent that is read digit by digit. -/
def maxExponent : Nat := Nat.pow 2 31 - 1

/-- The number `± significand * 10 ^ e`, if it is in range. -/
def finishNumber (negative : Bool) (significand : Nat) (e : Int) (pos : Cursor) :
    Except Fault (Json × Cursor) :=
  match Binary64.scaled negative significand e with
  | some x => .ok (.number (.double x), pos)
  | none => pos.fail .numberOutOfRange

/-- Reads exponent digits after the first; an exponent that is too large is a fault
at the digit that makes it so, unless it leaves the number zero. -/
def readExponentDigits (negative : Bool) (significand : Nat) (start : Int)
    (positive : Bool) : Nat → List Char → Cursor → Except Fault (Json × Cursor)
  | e, [], pos =>
      finishNumber negative significand (if positive then start + e else start - e) pos
  | e, c :: rest, pos =>
      if c.isDigit then
        let next := e * 10 + digitValue c
        if maxExponent < next then
          if significand ≠ 0 && positive then pos.advance.fail .numberOutOfRange
          else finishNumber negative 0 0 (readDigits pos).2
        else readExponentDigits negative significand start positive next rest pos.advance
      else
        finishNumber negative significand (if positive then start + e else start - e) pos

def readExponent (negative : Bool) (significand : Nat) (start : Int) (pos : Cursor) :
    Except Fault (Json × Cursor) :=
  let afterLetter := pos.advance
  let (positive, origin) :=
    match afterLetter.rest with
    | '+' :: _ => (true, afterLetter.advance)
    | '-' :: _ => (false, afterLetter.advance)
    | _ => (true, afterLetter)
  match origin.rest with
  | [] => origin.fail .endInValue
  | c :: rest =>
      if c.isDigit then
        readExponentDigits negative significand start positive (digitValue c) rest
          origin.advance
      else .error ⟨.invalidNumber, origin.offset + 1⟩

def startsExponent (pos : Cursor) : Bool :=
  match pos.rest with
  | 'e' :: _ => true
  | 'E' :: _ => true
  | _ => false

/-- The fraction, from its point on; `e` counts the digits of the integer part that
did not fit the significand. -/
def readFraction (negative : Bool) (significand : Nat) (e : Nat) (pos : Cursor) :
    Except Fault (Json × Cursor) :=
  let (digits, after) := readDigits pos.advance
  let (fine, dropped) := absorbDigits significand digits
  let kept := digits.length - dropped
  if digits.isEmpty then
    match after.rest with
    | [] => after.fail .endInValue
    | _ :: _ => after.failNext .invalidNumber
  else if startsExponent after then
    readExponent negative fine ((e : Int) - kept) after
  else finishNumber negative fine ((e : Int) - kept) after

/-- A number without fraction and exponent: an integer where it fits 64 bits. -/
def wholeNumber (negative : Bool) (significand : Nat) (pos : Cursor) :
    Except Fault (Json × Cursor) :=
  if !negative then .ok (.number (.integer significand), pos)
  else if significand ≠ 0 && significand ≤ Nat.pow 2 63 then
    .ok (.number (.integer (-(significand : Int))), pos)
  else finishNumber true significand 0 pos

/-- A number, from its first digit on. -/
def readNumber (negative : Bool) (pos : Cursor) : Except Fault (Json × Cursor) :=
  match pos.rest with
  | [] => pos.fail .endInValue
  | c :: _ =>
      if !c.isDigit then .error ⟨.invalidNumber, pos.offset + 1⟩
      else
        let (digits, after) := readDigits pos
        if c = '0' && 1 < digits.length then
          .error ⟨.invalidNumber, pos.offset + 2⟩
        else
          let (significand, dropped) := absorbDigits 0 digits
          match after.rest with
          | '.' :: _ => readFraction negative significand dropped after
          | _ =>
              if startsExponent after then
                readExponent negative significand dropped after
              else if 0 < dropped then
                finishNumber negative significand dropped after
              else wholeNumber negative significand after

/-! ### Strings -/

def hexValue? (c : Char) : Option Nat :=
  if c.isDigit then some (c.toNat - 0x30)
  else if 'a' ≤ c && c ≤ 'f' then some (c.toNat - 0x61 + 10)
  else if 'A' ≤ c && c ≤ 'F' then some (c.toNat - 0x41 + 10)
  else none

/-- Four hexadecimal digits.  A text that ends before four more bytes ends in the
string; anything else that is not four digits is an escape that is not valid. -/
def readHex4 (pos : Cursor) : Except Fault (Nat × Cursor) :=
  let left := (pos.rest.take 4).foldl (fun size c => size + c.utf8Size) 0
  if left < 4 then .error ⟨.endInString, pos.offset + left⟩
  else
    match (pos.rest.take 4).map hexValue? with
    | [some a, some b, some c, some d] =>
        .ok (((a * 16 + b) * 16 + c) * 16 + d, ⟨pos.rest.drop 4, pos.offset + 4⟩)
    | _ => .error ⟨.invalidEscape, pos.offset + 4⟩

/-- The next character must be `expected`, in the middle of a surrogate pair. -/
def expectInPair (expected : Char) (pos : Cursor) : Except Fault Cursor :=
  match pos.rest with
  | [] => pos.fail .endInString
  | c :: _ =>
      if c = expected then .ok pos.advance
      else .error ⟨.unexpectedEndOfEscape, pos.offset + 1⟩

/-- A character given by its number, after the letter `u`. -/
def readUnicodeEscape (pos : Cursor) : Except Fault (Char × Cursor) := do
  let (high, after) ← readHex4 pos
  if 0xDC00 ≤ high && high ≤ 0xDFFF then after.fail .loneSurrogate
  else if high < 0xD800 || 0xDBFF < high then return (Char.ofNat high, after)
  else
    let afterSlash ← expectInPair '\\' after
    let afterLetter ← expectInPair 'u' afterSlash
    let (low, last) ← readHex4 afterLetter
    if low < 0xDC00 || 0xDFFF < low then last.fail .loneSurrogate
    else return (Char.ofNat ((high - 0xD800) * 0x400 + (low - 0xDC00) + 0x10000), last)

def simpleEscape? : Char → Option Char
  | '"' => some '"'
  | '\\' => some '\\'
  | '/' => some '/'
  | 'b' => some (Char.ofNat 8)
  | 'f' => some (Char.ofNat 12)
  | 'n' => some '\n'
  | 'r' => some '\r'
  | 't' => some '\t'
  | _ => none

/-- An escape, after its backslash. -/
def readEscape (pos : Cursor) : Except Fault (Char × Cursor) :=
  match pos.rest with
  | [] => pos.fail .endInString
  | 'u' :: _ => readUnicodeEscape pos.advance
  | c :: _ =>
      match simpleEscape? c with
      | some meaning => .ok (meaning, pos.advance)
      | none => .error ⟨.invalidEscape, pos.offset + 1⟩

/-- The characters of a string up to its closing quote, newest first.  The first
argument bounds the number of characters. -/
def readStringChars : Nat → List Char → Cursor → Except Fault (List Char × Cursor)
  | 0, _, pos => pos.fail .endInString
  | bound + 1, acc, pos =>
      match pos.rest with
      | [] => pos.fail .endInString
      | '"' :: _ => .ok (acc, pos.advance)
      | '\\' :: _ => do
          let (c, after) ← readEscape pos.advance
          readStringChars bound (c :: acc) after
      | c :: _ =>
          if c.toNat < 0x20 then .error ⟨.controlCharacter, pos.offset + 1⟩
          else readStringChars bound (c :: acc) pos.advance

def readString (bound : Nat) (pos : Cursor) : Except Fault (String × Cursor) := do
  let (chars, after) ← readStringChars bound [] pos
  return (String.ofList chars.reverse, after)

/-! ### Values -/

def readColon (pos : Cursor) : Except Fault Cursor :=
  let here := skipSpace pos
  match here.rest with
  | [] => here.fail .endInObject
  | ':' :: _ => .ok here.advance
  | _ :: _ => here.failNext .expectedColon

/-- Where the next item of a list starts, or past the end of the list. -/
def nextItem (first : Bool) (pos : Cursor) : Except Fault (Bool × Cursor) :=
  let here := skipSpace pos
  match here.rest with
  | [] => here.fail .endInList
  | ']' :: _ => .ok (false, here.advance)
  | c :: _ =>
      if first then .ok (true, here)
      else if c = ',' then
        let next := skipSpace here.advance
        match next.rest with
        | [] => next.fail .endInValue
        | ']' :: _ => next.failNext .trailingComma
        | _ :: _ => .ok (true, next)
      else here.failNext .expectedListCommaOrEnd

/-- Past the opening quote of the next key of an object, or past its end. -/
def nextKey (first : Bool) (pos : Cursor) : Except Fault (Bool × Cursor) :=
  let here := skipSpace pos
  match here.rest with
  | [] => here.fail .endInObject
  | '\x7d' :: _ => .ok (false, here.advance)
  | c :: _ =>
      if first then
        if c = '"' then .ok (true, here.advance) else here.failNext .keyMustBeString
      else if c = ',' then
        let next := skipSpace here.advance
        match next.rest with
        | [] => next.fail .endInValue
        | '"' :: _ => .ok (true, next.advance)
        | '\x7d' :: _ => next.failNext .trailingComma
        | _ :: _ => next.failNext .keyMustBeString
      else here.failNext .expectedObjectCommaOrEnd

mutual

/-- A value.  The first argument is the size of the text, the second bounds the
number of steps, and the third is the number of lists and objects that may still be
opened inside each other. -/
def readValue (size : Nat) : Nat → Nat → Cursor → Except Fault (Json × Cursor)
  | 0, _, pos => pos.fail .endInValue
  | bound + 1, depth, pos =>
      let here := skipSpace pos
      match here.rest with
      | [] => here.fail .endInValue
      | 'n' :: _ => readWord .null ['u', 'l', 'l'] here.advance
      | 't' :: _ => readWord (.bool true) ['r', 'u', 'e'] here.advance
      | 'f' :: _ => readWord (.bool false) ['a', 'l', 's', 'e'] here.advance
      | '"' :: _ => do
          let (s, after) ← readString (size + 1) here.advance
          return (.string s, after)
      | '-' :: _ => readNumber true here.advance
      | '[' :: _ =>
          if depth ≤ 1 then here.failNext .tooDeep
          else do
            let (items, after) ← readItems size bound (depth - 1) true [] here.advance
            return (.array items, after)
      | '\x7b' :: _ =>
          if depth ≤ 1 then here.failNext .tooDeep
          else do
            let (entries, after) ← readEntries size bound (depth - 1) true [] here.advance
            return (ofEntries entries, after)
      | c :: _ => if c.isDigit then readNumber false here else here.failNext .expectedValue

def readItems (size : Nat) : Nat → Nat → Bool → List Json → Cursor →
    Except Fault (List Json × Cursor)
  | 0, _, _, _, pos => pos.fail .endInList
  | bound + 1, depth, first, acc, pos => do
      let (more, here) ← nextItem first pos
      if more then
        let (value, after) ← readValue size bound depth here
        readItems size bound depth false (value :: acc) after
      else return (acc.reverse, here)

def readEntries (size : Nat) : Nat → Nat → Bool → List (String × Json) → Cursor →
    Except Fault (List (String × Json) × Cursor)
  | 0, _, _, _, pos => pos.fail .endInObject
  | bound + 1, depth, first, acc, pos => do
      let (more, here) ← nextKey first pos
      if more then
        let (key, afterKey) ← readString (size + 1) here
        let origin ← readColon afterKey
        let (value, after) ← readValue size bound depth origin
        readEntries size bound depth false ((key, value) :: acc) after
      else return (acc.reverse, here)

end

/-- Lists and objects may be nested one less than this deep. -/
def nestingLimit : Nat := 128

def readFault (source : String) : Except Fault Json := do
  let chars := source.toList
  let size := chars.length
  let (value, after) ← readValue size (2 * size + 2) nestingLimit ⟨chars, 0⟩
  let last := skipSpace after
  match last.rest with
  | [] => return value
  | _ :: _ => last.failNext .trailingCharacters

def read (source : String) : Except SyntaxError Json :=
  (readFault source).mapError (Fault.locate source)

end OpenApiTypings.Json
