import OpenApiTypings.Enum.Declaration

/-!
# The registry of enums

All enums of one document are declared side by side, so their names must differ.
The registry gives an enum its base name when that is free, and otherwise the base
name with the smallest number from 2 on that is free.  An enum with the same members
under the same base name is declared once: the search for a name stops at it.

A name, once given, keeps its members.
-/

namespace OpenApiTypings

/-- The names that the declarations of a document take themselves. -/
def reservedNames : List String := ["Components", "Routes"]

/-- The enums declared so far, by name and in the order of their names. -/
structure Registry where
  entries : Table (List EnumMember) := []
  deriving DecidableEq, Repr

namespace Registry

def empty : Registry := {}

def members? (registry : Registry) (name : String) : Option (List EnumMember) :=
  registry.entries.get? name

def get? (registry : Registry) (name : String) : Option EnumDecl :=
  (registry.members? name).map fun members => ⟨name, members⟩

def size (registry : Registry) : Nat :=
  registry.entries.length

/-- The names to be tried for a base name, one for each number. -/
def candidate (base : String) : Nat → String
  | 0 => base
  | n + 1 => base ++ toString (n + 2)

/-- A name that serves for the members: it is free, or it is theirs already. -/
def serves (registry : Registry) (members : List EnumMember) (name : String) : Bool :=
  match registry.members? name with
  | some existing => existing = members
  | none => !reservedNames.contains name

/-- The first candidate that serves.  Each enum and each reserved name can stand in
the way of one candidate only, so one more candidate than that is enough. -/
def choose (registry : Registry) (base : String) (members : List EnumMember) : String :=
  let bound := registry.size + reservedNames.length + 1
  match (List.range bound).find? fun n => registry.serves members (candidate base n) with
  | some n => candidate base n
  | none => candidate base bound

def declare (registry : Registry) (name : String) (members : List EnumMember) :
    Registry :=
  ⟨Table.insert name members registry.entries⟩

end Registry

end OpenApiTypings
