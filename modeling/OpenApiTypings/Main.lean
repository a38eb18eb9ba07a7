import OpenApiTypings.CommandLine.Program
import OpenApiTypings.Log.Filter
import Std.Time.DateTime.Timestamp

/-!
# The executable

The outermost layer: it hands the files of the system, the clock and the arguments to
the program, and prints what the program gives.
-/

namespace OpenApiTypings.Executable

/-- The number of an error of the system.  Some operations give it with its sign
turned, as a word that is close to the largest one. -/
def errorNumber (code : UInt32) : Nat := min code.toNat (Nat.pow 2 32 - code.toNat)

def numberedFault? (code : UInt32) : Option FileFault :=
  match errorNumber code with
  | 20 => some .notDirectory
  | 21 => some .isDirectory
  | 36 => some .nameTooLong
  | 40 => some .tooManyLinks
  | _ => none

def faultOf (error : IO.Error) : FileFault :=
  let numbered? :=
    match error with
    | .noFileOrDirectory .. => some FileFault.notFound
    | .alreadyExists .. => some .alreadyExists
    | .inappropriateType _ code _ => numberedFault? code
    | .invalidArgument _ code _ => numberedFault? code
    | _ => none
  numbered?.getD (.other (toString error))

/-- An operation with the fault it may end in. -/
def guarded (operation : IO α) : IO (Except FileFault α) := do
  match ← operation.toBaseIO with
  | .ok value => return .ok value
  | .error error => return .error (faultOf error)

def readText (path : String) : IO (Except FileFault String) := do
  match ← guarded (IO.FS.readBinFile path) with
  | .error fault => return .error fault
  | .ok bytes =>
      match String.fromUTF8? bytes with
      | some text => return .ok text
      | none => return .error .notText

def files : FileSystem IO where
  readText := readText
  writeText path text := guarded (IO.FS.writeFile path text)
  makeDirectory path := guarded (IO.FS.createDir path)
  isDirectory path := do
    match ← readText path with
    | .error .isDirectory => return true
    | _ => return false

def now : IO Moment := do
  let stamp ← Std.Time.Timestamp.now
  return ⟨stamp.toSecondsSinceUnixEpoch.val, 0⟩

def logLine (moment : Moment) (event : Event) : String :=
  moment.text ++ " " ++ event.level.label ++ " " ++ event.target.name ++ ": " ++
    event.message

end OpenApiTypings.Executable

open OpenApiTypings Executable in
/-- Runs the program.  The environment says which events are logged. -/
def main (arguments : List String) : IO UInt32 := do
  let moment ← now
  let filter := LogFilter.ofSetting (← IO.getEnv "TSGEN_LOG")
  let report ← CommandLine.run files moment arguments
  for event in report.events do
    if filter.admits event then IO.eprintln (logLine moment event)
  IO.print report.out
  IO.eprint report.err
  return report.code.toUInt32
