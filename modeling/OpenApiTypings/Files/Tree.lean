import OpenApiTypings.Files.System
import OpenApiTypings.Table

/-!
# A tree of files

A file system in memory: the entries below one directory, which is both the top and
the place where the program runs.  Paths are followed as a system follows them, name
by name, through links and upwards through `..`.
-/

namespace OpenApiTypings

/-- What a file holds: a text, or bytes that are no text. -/
inductive Content where
  | text (s : String)
  | bytes (data : List UInt8)
  deriving DecidableEq, Repr

inductive Entry where
  | file (content : Content)
  | directory
  /-- A link to the path. -/
  | link (target : String)
  deriving DecidableEq, Repr

/-- The names on the way from the top to an entry. -/
abbrev Location := List String

/-- The entries below the top, sorted by location. -/
structure FileTree where
  entries : List (Location × Entry) := []
  deriving DecidableEq, Repr

inductive Place where
  | found (location : Location) (entry : Entry)
  /-- Nowhere yet, but the directory around it is there; the path may ask for a
  directory by a slash at its end. -/
  | vacant (location : Location) (asDirectory : Bool)
  deriving DecidableEq, Repr

namespace FileTree

/-! ### Following paths -/

/-- The longest name, in bytes. -/
def maxName : Nat := 255

/-- The longest path, in bytes. -/
def maxPath : Nat := 4095

def maxLinks : Nat := 40

def entryAt? (tree : FileTree) (location : Location) : Option Entry :=
  if location.isEmpty then some .directory else List.lookup location tree.entries

/-- Follows names from a directory on.  `follow` goes on behind a link.  `throughLast`
says whether what stands at the very end is looked into: a link there is followed, and
a slash behind it asks for a directory. -/
def descend (tree : FileTree) (throughLast : Bool)
    (follow : Location → List String → Except FileFault Place) :
    List String → Location → Except FileFault Place
  | [], here => .ok (.found here .directory)
  | name :: rest, here =>
      if Path.isIdle name then descend tree throughLast follow rest here
      else if name = ".." then descend tree throughLast follow rest here.dropLast
      else if maxName < name.utf8ByteSize then .error .nameTooLong
      else
        let location := here ++ [name]
        let isLast := if throughLast then rest.isEmpty else rest.all (· = "")
        match tree.entryAt? location with
        | some .directory => descend tree throughLast follow rest location
        | some (.file content) =>
            if isLast then .ok (.found location (.file content))
            else .error .notDirectory
        | some (.link target) =>
            if isLast && !throughLast then .ok (.found location (.link target))
            else
              let start := if target.toList.head? = some '/' then [] else here
              follow start (Path.segments target ++ rest)
        | none =>
            if rest.all (· = "") then .ok (.vacant location !rest.isEmpty)
            else .error .notFound

/-- Follows names from a directory on, through so many links at most. -/
def walk (tree : FileTree) (throughLast : Bool) :
    Nat → Location → List String → Except FileFault Place
  | 0, _, _ => .error .tooManyLinks
  | links + 1, here, names =>
      descend tree throughLast (walk tree throughLast links) names here

def locate (tree : FileTree) (throughLast : Bool) (path : String) :
    Except FileFault Place :=
  if path = "" then .error .notFound
  else if path.toList.contains (Char.ofNat 0) then .error .badPath
  else if maxPath < path.utf8ByteSize then .error .nameTooLong
  else tree.walk throughLast (maxLinks + 1) [] (Path.segments path)

/-! ### Operations -/

def put (tree : FileTree) (location : Location) (entry : Entry) : FileTree :=
  ⟨Table.insert location entry tree.entries⟩

def content (tree : FileTree) (path : String) : Except FileFault Content := do
  match ← tree.locate true path with
  | .found _ (.file content) => return content
  | .found _ .directory => throw .isDirectory
  | .found _ (.link _) => throw .notFound
  | .vacant .. => throw .notFound

def readText (tree : FileTree) (path : String) : Except FileFault String := do
  match ← tree.content path with
  | .text s => return s
  | .bytes _ => throw .notText

def write (tree : FileTree) (path : String) (content : Content) :
    Except FileFault FileTree := do
  match ← tree.locate true path with
  | .found location (.file _) => return tree.put location (.file content)
  | .found .. => throw .isDirectory
  | .vacant location false => return tree.put location (.file content)
  | .vacant _ true => throw .isDirectory

def make (tree : FileTree) (path : String) (entry : Entry) : Except FileFault FileTree := do
  match ← tree.locate false path with
  | .found .. => throw .alreadyExists
  | .vacant location _ => return tree.put location entry

def isDirectory (tree : FileTree) (path : String) : Bool :=
  match tree.locate true path with
  | .ok (.found _ .directory) => true
  | _ => false

/-- The tree without what a path leads to. -/
def remove (tree : FileTree) (path : String) : Except FileFault FileTree := do
  match ← tree.locate false path with
  | .found location _ =>
      return ⟨tree.entries.filter fun entry => !location.isPrefixOf entry.1⟩
  | .vacant .. => throw .notFound

/-- An operation that changes the tree unless it fails. -/
def change (operation : FileTree → Except FileFault FileTree) :
    StateM FileTree (Except FileFault Unit) := fun tree =>
  match operation tree with
  | .ok changed => (.ok (), changed)
  | .error fault => (.error fault, tree)

def system : FileSystem (StateM FileTree) where
  readText path := fun tree => (tree.readText path, tree)
  writeText path text := change (·.write path (.text text))
  makeDirectory path := change (·.make path .directory)
  isDirectory path := fun tree => (tree.isDirectory path, tree)

end FileTree

end OpenApiTypings
