import OpenApiTypings.CommandLine.Arguments
import OpenApiTypings.Output.Write

/-!
# The program

A run takes arguments, a file system and the current time, and gives an exit code, the
two texts it prints, and the events worth logging.
-/

namespace OpenApiTypings.CommandLine

def programVersion : String := "0.1.0"

def usage : String := "Usage: " ++ generatorName ++ " [OPTIONS] [SCHEMA]\n"

/-- What the program prints when it is asked for help, or for nothing. -/
def helpText : String :=
  "Generate TypeScript types from an OpenAPI schema\n\n" ++ usage ++
    "\nArguments:\n" ++
    "  [SCHEMA]  Path to OpenAPI schema (YAML)\n" ++
    "\nOptions:\n" ++
    "  -s, --schema <PATH>  Path to OpenAPI schema (YAML); " ++
    "takes precedence over the positional argument\n" ++
    "  -o, --output <PATH>  Output file path [default: " ++ Arguments.defaultOutput ++
    "]\n" ++
    "      --input-json     Treat schema input as JSON\n" ++
    "  -h, --help           Print help\n" ++
    "  -V, --version        Print version\n"

def versionText : String := generatorName ++ " " ++ programVersion ++ "\n"

def UsageFault.report (fault : UsageFault) : String :=
  "error: " ++ fault.message ++ "\n\n" ++ usage ++
    "\nFor more information, try '--help'.\n"

/-- What becomes of a run. -/
structure RunReport where
  code : Nat := 0
  out : String := ""
  err : String := ""
  events : List Event := []

/-- The report of a run that ends before it has begun. -/
def Stop.report : Stop → RunReport
  | .badUsage fault => { code := 2, err := fault.report }
  | .help => { out := helpText }
  | .version => { out := versionText }

def bannerAt (now : Moment) : Banner :=
  { generatorVersion := some programVersion, generatedAt := now }

variable {m : Type → Type} [Monad m]

def execute (fs : FileSystem m) (now : Moment) (args : Arguments) : m RunReport :=
  match args.sourcePath? with
  | none => return { out := helpText ++ "\n" }
  | some source =>
      if args.outputPath = "" then
        return { code := 1, err := "output path is required\n" }
      else do
        let report ← Output.write fs args.format source args.outputPath (bannerAt now)
        match report.result with
        | .ok outcome =>
            let finished := Event.finished outcome source args.outputPath
            return { events := report.events ++ [finished] }
        | .error error =>
            return { code := 1, err := error.message ++ "\n", events := report.events }

def run (fs : FileSystem m) (now : Moment) (arguments : List String) : m RunReport :=
  match Arguments.parse arguments with
  | .error stop => return stop.report
  | .ok args => execute fs now args

end OpenApiTypings.CommandLine
