import OpenApiTypings.Text.Words

/-!
# Where a schema is compiled

The scope of a schema says how deep it is nested, on which side of the wire it is
used, and by which hint the enums in it are named.  A schema deeper than the limit
is not looked at, which makes the compilation of recursive schemas end.
-/

namespace OpenApiTypings.Schema

/-- The side of the wire a schema is compiled for. -/
inductive Mode where
  /-- A component: nothing is left out, and references stay look-ups. -/
  | component
  /-- A request: read-only properties are left out, and references are inlined. -/
  | input
  /-- A response: write-only properties are left out, and references are inlined. -/
  | output
  deriving DecidableEq, Repr

/-- The deepest nesting that is still looked at. -/
def maxDepth : Nat := 30

structure Scope where
  depth : Nat
  mode : Mode
  hint : String
  deriving DecidableEq, Repr

namespace Scope

def top (mode : Mode) (hint : String) : Scope := ⟨0, mode, hint⟩

def deeper (scope : Scope) (step : Nat) : Scope :=
  { scope with depth := scope.depth + step }

/-- The hint extended by a segment, some levels deeper. -/
def child (scope : Scope) (part : String) (step : Nat) : Scope :=
  { scope with depth := scope.depth + step, hint := Text.joinHint scope.hint part }

/-- Another hint, some levels deeper. -/
def renamed (scope : Scope) (hint : String) (step : Nat) : Scope :=
  { scope with depth := scope.depth + step, hint }

def exhausted (scope : Scope) : Bool :=
  maxDepth < scope.depth

end Scope

end OpenApiTypings.Schema
