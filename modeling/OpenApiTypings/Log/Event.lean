import OpenApiTypings.Document.Error

/-!
# Events worth logging

What happens while a document is turned into declarations is reported as a list of
events.  An event knows the part of the program it comes from, its level, and its
wording: a sentence followed by its fields.
-/

namespace OpenApiTypings

/-- How important an event is, from the least to the most. -/
inductive LogLevel where
  | trace
  | debug
  | info
  | warn
  | error
  deriving DecidableEq, Repr

namespace LogLevel

def rank : LogLevel → Nat
  | .trace => 0
  | .debug => 1
  | .info => 2
  | .warn => 3
  | .error => 4

def label : LogLevel → String
  | .trace => "TRACE"
  | .debug => "DEBUG"
  | .info => "INFO"
  | .warn => "WARN"
  | .error => "ERROR"

end LogLevel

inductive LogTarget where
  | core
  | commandLine
  deriving DecidableEq, Repr

def LogTarget.name : LogTarget → String
  | .core => "tsgen_core"
  | .commandLine => "tsgen_cli"

inductive SourceFormat where
  | yaml
  | json
  deriving DecidableEq, Repr

def SourceFormat.label : SourceFormat → String
  | .yaml => "Yaml"
  | .json => "Json"

inductive WriteOutcome where
  | written
  | unchanged
  deriving DecidableEq, Repr

def WriteOutcome.label : WriteOutcome → String
  | .written => "Written"
  | .unchanged => "Unchanged"

inductive Event where
  | enumNameTaken (base name : String)
  | enumRegistered (name : String) (members : Nat)
  | depthExhausted (hint : String) (depth : Nat)
  | referenceDepthExhausted (pointer : String) (depth : Nat)
  | building (openapi : String) (paths webhooks schemas : Nat)
  | itemSkipped (label key : String)
  | parameterDropped (name location : String)
  | headerUnresolved (name : String) (error : CompileError)
  | built (enums paths webhooks : Nat)
  | sourceRead (path : String) (length : Nat) (format : SourceFormat)
  | outputUnchanged (path : String)
  | outputWritten (path : String) (length : Nat)
  | finished (outcome : WriteOutcome) (source output : String)
  deriving Repr

namespace Event

def level : Event → LogLevel
  | .enumNameTaken .. => .trace
  | .enumRegistered .. => .trace
  | .depthExhausted .. => .trace
  | .referenceDepthExhausted .. => .trace
  | .building .. => .debug
  | .itemSkipped .. => .trace
  | .parameterDropped .. => .trace
  | .headerUnresolved .. => .debug
  | .built .. => .debug
  | .sourceRead .. => .debug
  | .outputUnchanged .. => .info
  | .outputWritten .. => .info
  | .finished .. => .debug

def target : Event → LogTarget
  | .finished .. => .commandLine
  | _ => .core

def sentence : Event → String
  | .enumNameTaken .. => "Enum name taken, using suffixed name."
  | .enumRegistered .. => "Registered enum."
  | .depthExhausted .. => "Schema depth exhausted."
  | .referenceDepthExhausted .. => "Schema depth exhausted at reference."
  | .building .. => "Building declaration IR."
  | .itemSkipped .. => "Skipping item without operations."
  | .parameterDropped .. => "Dropping parameter with unknown location."
  | .headerUnresolved .. => "Unresolved response header typed as unknown."
  | .built .. => "Built declaration IR."
  | .sourceRead .. => "Read OpenAPI document."
  | .outputUnchanged .. => "Declarations unchanged, skipping write."
  | .outputWritten .. => "Wrote declarations."
  | .finished .. => "Generation finished."

def fields : Event → List (String × String)
  | .enumNameTaken base name => [("base", base), ("name", name)]
  | .enumRegistered name members => [("name", name), ("members", toString members)]
  | .depthExhausted hint depth => [("hint", hint), ("depth", toString depth)]
  | .referenceDepthExhausted pointer depth =>
      [("reference", Text.shown pointer), ("depth", toString depth)]
  | .building openapi paths webhooks schemas =>
      [("openapi", Text.shown openapi), ("paths", toString paths),
        ("webhooks", toString webhooks), ("schemas", toString schemas)]
  | .itemSkipped label key => [("label", Text.shown label), ("key", key)]
  | .parameterDropped name location => [("name", name), ("location", location)]
  | .headerUnresolved name error => [("header", name), ("error", error.message)]
  | .built enums paths webhooks =>
      [("enums", toString enums), ("paths", toString paths),
        ("webhooks", toString webhooks)]
  | .sourceRead path length format =>
      [("source", path), ("len", toString length), ("format", format.label)]
  | .outputUnchanged path => [("output", path)]
  | .outputWritten path length => [("output", path), ("len", toString length)]
  | .finished outcome source output =>
      [("outcome", outcome.label), ("schema", Text.shown source), ("output", output)]

def message (event : Event) : String :=
  String.intercalate " "
    (event.sentence :: event.fields.map fun field => field.1 ++ "=" ++ field.2)

end Event

end OpenApiTypings
