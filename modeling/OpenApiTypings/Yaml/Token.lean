import OpenApiTypings.Yaml.Cursor

/-!
# Tags and tokens of a YAML source

A tag names the kind of a node.  It is a row of bytes, since percent signs may give it
bytes that are no text.  A tag that begins with an exclamation mark is the document's
own; all others stand for kinds that are known beforehand.

Indentation reaches the grammar as tokens: a block collection starts with a token of
its own and ends with `blockEnd`, and every key of a mapping stands behind `key`,
even where the source shows its key only by the colon behind it.
-/

namespace OpenApiTypings.Yaml

structure Tag where
  bytes : List UInt8
  deriving DecidableEq, Repr

namespace Tag

def ofText (s : String) : Tag := ⟨s.toUTF8.data.toList⟩

/-- The tag that is written by some bytes.  It ends before the first zero. -/
def ofBytes (bytes : List UInt8) : Tag := ⟨bytes.takeWhile (· ≠ 0)⟩

def isEmpty (t : Tag) : Bool := t.bytes.isEmpty

def append (t u : Tag) : Tag := ⟨t.bytes ++ u.bytes⟩

def isOwn (t : Tag) : Bool := t.bytes.head? = some '!'.toUInt8

/-- The name of a tag of the document's own: the text behind its exclamation mark, or
the mark if there is nothing else.  Bytes that are no text are no name. -/
def ownName? (t : Tag) : Option String :=
  if t.isOwn then
    let name := t.bytes.drop 1
    String.fromUTF8? (if name.isEmpty then t.bytes else name).toByteArray
  else none

end Tag

inductive Token where
  | versionDirective (major minor : Nat)
  | tagDirective (handle : String) (expansion : Tag)
  | documentStart
  | documentEnd
  | blockSequenceStart
  | blockMappingStart
  | blockEnd
  | flowSequenceStart
  | flowSequenceEnd
  | flowMappingStart
  | flowMappingEnd
  | blockEntry
  | flowEntry
  | key
  | value
  | anchor (name : String)
  /-- The use of an anchored node. -/
  | reference (name : String)
  /-- A tag: a handle that directives expand, and what follows it.  An empty handle
  stands for nothing. -/
  | tag (handle : String) (suffix : Tag)
  /-- A scalar, and whether it is written without quotes and outside a block. -/
  | scalar (text : String) (plain : Bool)
  | sourceEnd
  deriving DecidableEq, Repr

end OpenApiTypings.Yaml
