import OpenApiTypings.Text.Lines

/-!
# File systems

What the program asks of a file system, as an interface over a monad.  The program is
written against the interface alone; it runs on the files of the system as well as on
a tree of files in memory.

A path is a text of names with slashes between them.  An empty name and the name `.`
stand for the directory they are in and count for nothing, except that a path may
start with them: with `/` at the top, with `.` where the program runs.
-/

namespace OpenApiTypings

/-! ### Paths -/

namespace Path

def segments (path : String) : List String :=
  (Text.cutAt '/' path.toList).map String.ofList

/-- The name counts for nothing, unless the path starts with it. -/
def isIdle (segment : String) : Bool :=
  segment = "" || segment = "."

/-- Removes idle names, newest name first, but not the first name of the path. -/
def dropIdle : List String → List String
  | [] => []
  | [first] => [first]
  | segment :: second :: more =>
      if isIdle segment then dropIdle (second :: more) else segment :: second :: more

/-- The path of names, newest name first. -/
def ofReversed : List String → String
  | [""] => "/"
  | names => String.intercalate "/" names.reverse

/-- The path of the directory that a path lies in.  It is empty for a single name,
and there is none for an empty path and for the top. -/
def parent? (path : String) : Option String :=
  if path = "" then none
  else
    match dropIdle (segments path).reverse with
    | [] => none
    | [""] => none
    | _ :: outer => some (ofReversed (dropIdle outer))

end Path

/-! ### Failures -/

inductive FileFault where
  | notFound
  | alreadyExists
  | notDirectory
  | isDirectory
  | nameTooLong
  | tooManyLinks
  /-- The file holds bytes that are no text. -/
  | notText
  /-- The path holds the character that ends a path of the system. -/
  | badPath
  /-- Not even the top of a path can be made. -/
  | noTop
  /-- Any other reason, with the wording of the system. -/
  | other (description : String)
  deriving DecidableEq, Repr

namespace FileFault

def numbered (description : String) (number : Nat) : String :=
  description ++ " (os error " ++ toString number ++ ")"

def message : FileFault → String
  | .notFound => numbered "No such file or directory" 2
  | .alreadyExists => numbered "File exists" 17
  | .notDirectory => numbered "Not a directory" 20
  | .isDirectory => numbered "Is a directory" 21
  | .nameTooLong => numbered "File name too long" 36
  | .tooManyLinks => numbered "Too many levels of symbolic links" 40
  | .notText => "stream did not contain valid UTF-8"
  | .badPath => "file name contained an unexpected NUL byte"
  | .noTop => "failed to create whole tree"
  | .other description => description

end FileFault

/-! ### Operations -/

structure FileSystem (m : Type → Type) where
  /-- The text of a file. -/
  readText (path : String) : m (Except FileFault String)
  /-- Makes a file with a text, or replaces the text of a file. -/
  writeText (path text : String) : m (Except FileFault Unit)
  /-- Makes one directory. -/
  makeDirectory (path : String) : m (Except FileFault Unit)
  /-- There is a directory. -/
  isDirectory (path : String) : m Bool

namespace FileSystem

variable {m : Type → Type} [Monad m]

def ensureDirectory (fs : FileSystem m) (path : String) : m (Except FileFault Unit) := do
  match ← fs.makeDirectory path with
  | .ok _ => return .ok ()
  | .error fault => return if ← fs.isDirectory path then .ok () else .error fault

/-- Makes a directory and the directories it lies in; the first argument bounds how
many those are. -/
def ensureDirectories (fs : FileSystem m) : Nat → String → m (Except FileFault Unit)
  | 0, _ => return .error .noTop
  | bound + 1, path =>
      if path = "" then return .ok ()
      else do
        match ← fs.ensureDirectory path with
        | .error .notFound =>
            match Path.parent? path with
            | none => return .error .noTop
            | some outer =>
                match ← fs.ensureDirectories bound outer with
                | .ok _ => fs.ensureDirectory path
                | .error fault => return .error fault
        | settled => return settled

def createDirectories (fs : FileSystem m) (path : String) : m (Except FileFault Unit) :=
  fs.ensureDirectories (path.length + 1) path

end FileSystem

end OpenApiTypings
