import OpenApiTypings.Log.Event
import OpenApiTypings.Text.Lines

/-!
# Which events are logged

A filter is a list of rules: a level for the events whose target begins with a text.
Of the rules for an event the one with the longest text decides, and of those the last
one.  A level alone is a rule for all events.

What a user writes is a level alone, which holds for the targets of this program, or a
list of rules; nothing at all is the level `info`.
-/

namespace OpenApiTypings

/-- How much is logged: nothing, or the events of a level and of all more important
ones. -/
abbrev LogThreshold := Option LogLevel

namespace LogThreshold

/-- The least important level that counts when no rule is given at all. -/
def standard : LogThreshold := some .error

def names : List (String × LogThreshold) :=
  [("off", none), ("error", some .error), ("warn", some .warn), ("info", some .info),
    ("debug", some .debug), ("trace", some .trace)]

/-- The threshold with a name, in letters of either case, or with a number. -/
def ofText? (text : String) : Option LogThreshold :=
  let lower := String.ofList (text.toList.map Char.toLower)
  match List.lookup lower names with
  | some threshold => some threshold
  | none => names.zipIdx.findSome? fun (entry, i) =>
      if toString i = text then some entry.2 else none

def admits (threshold : LogThreshold) (level : LogLevel) : Bool :=
  match threshold with
  | none => false
  | some least => least.rank ≤ level.rank

end LogThreshold

/-- A rule for the events whose target begins with a text; without a text, for all. -/
structure LogRule where
  target : Option String
  threshold : LogThreshold
  deriving DecidableEq, Repr

namespace LogRule

def isTargetChar (c : Char) : Bool :=
  c.isAlphanum || c = '_' || c = ':' || c = '-'

def targetOf? (chars : List Char) : Option String :=
  if chars.isEmpty || !chars.all isTargetChar then none else some (String.ofList chars)

/-- The rule that a text stands for: a level, a target, or both with an equals sign
between them.  A target alone lets all its events through. -/
def ofText? (text : String) : Option LogRule :=
  match LogThreshold.ofText? text with
  | some threshold => some ⟨none, threshold⟩
  | none =>
      match Text.cutAt '=' text.toList with
      | [target] => (targetOf? target).map fun t => ⟨some t, some .trace⟩
      | [target, level] => do
          let t ← targetOf? target
          let threshold ←
            if level.isEmpty then some (some .trace)
            else LogThreshold.ofText? (String.ofList level)
          return ⟨some t, threshold⟩
      | _ => none

def covers (rule : LogRule) (target : LogTarget) : Bool :=
  match rule.target with
  | none => true
  | some start => start.toList.isPrefixOf target.name.toList

/-- The rule decides before another one that was given earlier. -/
def precedes (rule earlier : LogRule) : Bool :=
  match rule.target, earlier.target with
  | _, none => true
  | none, some _ => false
  | some a, some b => b.length ≤ a.length

end LogRule

abbrev LogFilter := List LogRule

namespace LogFilter

def uniform (threshold : LogThreshold) : LogFilter :=
  [LogTarget.commandLine, LogTarget.core].map fun target => ⟨some target.name, threshold⟩

/-- The threshold of a level given alone. -/
def plainLevel? (text : String) : Option LogThreshold :=
  let lower := String.ofList (text.toList.map Char.toLower)
  if lower = "off" then none else List.lookup lower LogThreshold.names

def ofSetting (setting : Option String) : LogFilter :=
  match setting with
  | none => uniform (some .info)
  | some text =>
      match plainLevel? text with
      | some threshold => uniform threshold
      | none =>
          if Text.allBlank text then uniform (some .info)
          else (Text.cutAt ',' text.toList).filterMap fun rule =>
            LogRule.ofText? (String.ofList rule)

def deciding? (rules : LogFilter) (target : LogTarget) : Option LogRule :=
  (rules.filter (·.covers target)).foldl
    (fun best rule =>
      match best with
      | none => some rule
      | some earlier => if rule.precedes earlier then some rule else some earlier)
    none

def admits (rules : LogFilter) (event : Event) : Bool :=
  if rules.isEmpty then LogThreshold.standard.admits event.level
  else
    match rules.deciding? event.target with
    | some rule => rule.threshold.admits event.level
    | none => false

end LogFilter

end OpenApiTypings
