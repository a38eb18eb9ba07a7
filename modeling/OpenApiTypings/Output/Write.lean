import OpenApiTypings.Declarations.Build
import OpenApiTypings.Declarations.Render
import OpenApiTypings.Document.Decode
import OpenApiTypings.Files.System

/-!
# Writing the declarations of a source

The whole way from a source to a file.  The events of the way are kept beside the text
of the declarations, also when there is none.

A file is written without blanks at the ends of its lines and with exactly one newline
at its end.  Two files declare the same when they differ in their banners only, once
both are in this form.  The file of declarations is written only when it would declare
something else than it does.  A source that cannot be read or compiled leaves all files
as they are.
-/

namespace OpenApiTypings

/-! ### The text of a file -/

/-- The text of the file for a document.  The banner names the version of the
document's format unless it names one already. -/
def generateLogged (banner : Banner) (doc : Document) :
    Except CompileError String × List Event :=
  let (outcome, events) := buildLogged doc
  (outcome.map fun decls => decls.renderFile (banner.withVersionOf doc.openapi), events)

def generate (banner : Banner) (doc : Document) : Except CompileError String :=
  (generateLogged banner doc).1

def generateFromSource (format : SourceFormat) (source : String) (banner : Banner) :
    Except CompileError String × List Event :=
  match Document.parse format source with
  | .error error => (.error error, [])
  | .ok doc => generateLogged banner doc

/-! ### Errors -/

inductive WriteError where
  /-- The source, or the file that was written before, cannot be read. -/
  | read (path : String) (fault : FileFault)
  | write (path : String) (fault : FileFault)
  | createDirectory (path : String) (fault : FileFault)
  | compile (error : CompileError)
  deriving Repr

def WriteError.message : WriteError → String
  | .read path fault => "read schema " ++ path ++ ": " ++ fault.message
  | .write path fault => "write output " ++ path ++ ": " ++ fault.message
  | .createDirectory path fault => "create output dir " ++ path ++ ": " ++ fault.message
  | .compile error => error.message

structure WriteReport where
  result : Except WriteError WriteOutcome
  events : List Event

namespace Output

/-! ### The form in which a file is written -/

/-- The lines of a text without blanks at their ends and without empty lines at the
end. -/
def significantLines (text : List Char) : List (List Char) :=
  Text.trimEnd List.isEmpty ((Text.lines text).map (Text.trimEnd Text.isTrailingBlank))

def normalize (text : List Char) : List Char :=
  Text.unlines (significantLines text) ++ ['\n']

def bannerStart : List Char := "/*\n".toList

def bannerEnd : List Char := "*/\n\n".toList

/-- The text behind its banner; all of it when there is none. -/
def stripBanner (text : List Char) : List Char :=
  match Text.dropHead? bannerStart text with
  | none => text
  | some _ => (Text.dropThrough? bannerEnd text).getD text

/-- Two texts declare the same, the second of which is in the form in which it is
written. -/
def declareSame (existing normalized : List Char) : Bool :=
  stripBanner (normalize existing) = stripBanner normalized

/-! ### Writing -/

variable {m : Type → Type} [Monad m]

/-- The directories that a file needs, if its path names any. -/
def createParents (fs : FileSystem m) (path : String) : m (Except WriteError Unit) :=
  match Path.parent? path with
  | none => return .ok ()
  | some parent =>
      if parent = "" then return .ok ()
      else do return (← fs.createDirectories parent).mapError (.createDirectory parent)

def store (fs : FileSystem m) (path text : String) : m (Except WriteError Unit) := do
  match ← createParents fs path with
  | .error error => return .error error
  | .ok _ => return (← fs.writeText path text).mapError (.write path)

/-- Brings a file up to date with a text in the form in which it is written. -/
def update (fs : FileSystem m) (path text : String) :
    m (Except WriteError WriteOutcome) := do
  match ← fs.readText path with
  | .ok existing =>
      if declareSame existing.toList text.toList then return .ok .unchanged
      else return (← store fs path text).map fun _ => .written
  | .error .notFound => return (← store fs path text).map fun _ => .written
  | .error fault => return .error (.read path fault)

def outcomeEvent (path text : String) : WriteOutcome → Event
  | .written => .outputWritten path text.utf8ByteSize
  | .unchanged => .outputUnchanged path

def write (fs : FileSystem m) (format : SourceFormat) (source path : String)
    (banner : Banner) : m WriteReport := do
  match ← fs.readText source with
  | .error fault => return ⟨.error (.read source fault), []⟩
  | .ok text =>
      let (generated, events) := generateFromSource format text banner
      let opened := Event.sourceRead source text.utf8ByteSize format :: events
      match generated with
      | .error error => return ⟨.error (.compile error), opened⟩
      | .ok file =>
          let normal := String.ofList (normalize file.toList)
          match ← update fs path normal with
          | .error error => return ⟨.error error, opened⟩
          | .ok outcome => return ⟨.ok outcome, opened ++ [outcomeEvent path normal outcome]⟩

end Output

end OpenApiTypings
