import OpenApiTypings.Declarations.Banner
import OpenApiTypings.Log.Event
import OpenApiTypings.Text.Terminal

/-!
# Command-line arguments

Options have a long name and some a short one.  A value stands behind its option, as
the next argument or in the same one, and an option may be given once.  Behind `--`
every argument is a plain one, of which one is taken: the path of the source.

Arguments are read in order, and the first one that is wrong decides.  An option that
still waits for its value is found wanting when the next option or plain argument
comes.
-/

namespace OpenApiTypings.CommandLine

/-! ### What is asked for -/

structure Arguments where
  /-- The path of the source, as a plain argument. -/
  schemaArgument : Option String := none
  /-- The path of the source, as an option. -/
  schema : Option String := none
  output : Option String := none
  inputJson : Bool := false
  deriving DecidableEq, Repr

namespace Arguments

/-- Where the declarations are written when nothing else is said. -/
def defaultOutput : String := "type.ts"

def outputPath (args : Arguments) : String := args.output.getD defaultOutput

/-- The path of the source: the option goes before the plain argument, and an empty
path does not count. -/
def sourcePath? (args : Arguments) : Option String :=
  (args.schema.filter (· ≠ "")).or (args.schemaArgument.filter (· ≠ ""))

def format (args : Arguments) : SourceFormat :=
  if args.inputJson then .json else .yaml

end Arguments

inductive ValueOption where
  | schema
  | output
  deriving DecidableEq, Repr

namespace ValueOption

def label : ValueOption → String
  | .schema => "--schema <PATH>"
  | .output => "--output <PATH>"

def given (option : ValueOption) (args : Arguments) : Option String :=
  match option with
  | .schema => args.schema
  | .output => args.output

def set (option : ValueOption) (value : String) (args : Arguments) : Arguments :=
  match option with
  | .schema => { args with schema := some value }
  | .output => { args with output := some value }

end ValueOption

inductive Switch where
  | inputJson
  | help
  | version
  deriving DecidableEq, Repr

def Switch.label : Switch → String
  | .inputJson => "--input-json"
  | .help => "--help"
  | .version => "--version"

inductive LongName where
  | value (option : ValueOption)
  | switch (option : Switch)

def LongName.find? (name : String) : Option LongName :=
  if name = "schema" then some (.value .schema)
  else if name = "output" then some (.value .output)
  else if name = "input-json" then some (.switch .inputJson)
  else if name = "help" then some (.switch .help)
  else if name = "version" then some (.switch .version)
  else none

/-! ### What is wrong with arguments -/

inductive UsageFault where
  | unknownArgument (argument : String)
  | unexpectedValue (value label : String)
  | missingValue (label : String)
  | repeated (label : String)
  deriving DecidableEq, Repr

/-- The wording of a fault.  What has been typed is shown without control characters. -/
def UsageFault.message : UsageFault → String
  | .unknownArgument argument =>
      "unexpected argument '" ++ Text.printed argument ++ "' found"
  | .unexpectedValue value label =>
      "unexpected value '" ++ Text.printed value ++ "' for '" ++ label ++
        "' found; no more were expected"
  | .missingValue label =>
      "a value is required for '" ++ label ++ "' but none was supplied"
  | .repeated label => "the argument '" ++ label ++ "' cannot be used multiple times"

/-- Why a run ends before it has begun. -/
inductive Stop where
  | badUsage (fault : UsageFault)
  | help
  | version
  deriving DecidableEq, Repr

/-! ### Reading -/

/-- The arguments so far, and the option that was given last with its value, if it
has one already. -/
structure Progress where
  args : Arguments := {}
  pending : Option (ValueOption × Option String) := none

namespace Progress

/-- Sets the value of an option, which must not have one. -/
def assign (args : Arguments) (option : ValueOption) (value : String) :
    Except Stop Arguments :=
  match option.given args with
  | some _ => .error (.badUsage (.repeated option.label))
  | none => .ok (option.set value args)

/-- The arguments once the pending option is settled. -/
def settle (p : Progress) : Except Stop Arguments :=
  match p.pending with
  | none => .ok p.args
  | some (option, none) => .error (.badUsage (.missingValue option.label))
  | some (option, some value) => assign p.args option value

/-- An option whose value may stand in the same argument. -/
def takeOption (p : Progress) (option : ValueOption) (attached : Option String) :
    Except Stop Progress := do
  let args ← p.settle
  match attached with
  | some value => return { args := ← assign args option value }
  | none => return { args, pending := some (option, none) }

def takeSwitch (p : Progress) (option : Switch) : Except Stop Progress := do
  let args ← p.settle
  match option with
  | .help => throw .help
  | .version => throw .version
  | .inputJson =>
      if args.inputJson then throw (.badUsage (.repeated option.label))
      else return { args := { args with inputJson := true } }

/-- An argument behind two dashes. -/
def takeLong (p : Progress) (body : List Char) : Except Stop Progress :=
  let name := String.ofList (body.takeWhile (· ≠ '='))
  let attached :=
    match body.dropWhile (· ≠ '=') with
    | [] => none
    | _ :: value => some (String.ofList value)
  match LongName.find? name, attached with
  | none, _ => .error (.badUsage (.unknownArgument ("--" ++ name)))
  | some (.value option), _ => p.takeOption option attached
  | some (.switch option), some value =>
      .error (.badUsage (.unexpectedValue value option.label))
  | some (.switch option), none => p.takeSwitch option

/-- The value behind the letter of an option, in the same argument. -/
def attachedValue? : List Char → Option String
  | [] => none
  | '=' :: value => some (String.ofList value)
  | value => some (String.ofList value)

/-- Letters behind one dash. -/
def takeShort (p : Progress) : List Char → Except Stop Progress
  | [] => .ok p
  | c :: rest =>
      if c = 's' then p.takeOption .schema (attachedValue? rest)
      else if c = 'o' then p.takeOption .output (attachedValue? rest)
      else do
        let option ←
          if c = 'h' then pure Switch.help
          else if c = 'V' then pure Switch.version
          else throw (.badUsage (.unknownArgument (String.ofList ['-', c])))
        takeShort (← p.takeSwitch option) rest

def takePlain (p : Progress) (argument : String) : Except Stop Progress :=
  if p.args.schemaArgument.isSome then .error (.badUsage (.unknownArgument argument))
  else do
    let args ← p.settle
    return { args := { args with schemaArgument := some argument } }

/-- An argument that may be an option, a value or a plain argument. -/
def take (p : Progress) (argument : String) : Except Stop Progress :=
  match argument.toList with
  | '-' :: '-' :: body => p.takeLong body
  | '-' :: c :: letters => p.takeShort (c :: letters)
  | _ =>
      match p.pending with
      | some (option, none) => .ok { p with pending := some (option, some argument) }
      | _ => p.takePlain argument

/-- All arguments in order; `plainOnly` behind `--`. -/
def takeAll (plainOnly : Bool) (p : Progress) : List String → Except Stop Arguments
  | [] => p.settle
  | argument :: rest => do
      if plainOnly then takeAll true (← p.takePlain argument) rest
      else if argument = "--" then takeAll true p rest
      else takeAll false (← p.take argument) rest

end Progress

/-- The arguments of a run, without the name of the program. -/
def Arguments.parse (arguments : List String) : Except Stop Arguments :=
  Progress.takeAll false {} arguments

end OpenApiTypings.CommandLine
