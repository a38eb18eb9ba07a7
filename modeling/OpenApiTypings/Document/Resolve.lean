import OpenApiTypings.Document.Basic
import OpenApiTypings.Document.Error

/-!
# Following references

A reference to a component is followed for one step: it must point into the section
of its kind, the section must have the entry, and the entry must be an object in
place.  An entry that is itself a reference is refused, so following never loops.
-/

namespace OpenApiTypings

/-- A kind of reusable object: its section and the entries of that section. -/
structure ComponentKind (α : Type) where
  sec : Section
  entries : Components → Table (RefOr α)

namespace ComponentKind

def response : ComponentKind Response := ⟨.responses, Components.responses⟩

def requestBody : ComponentKind RequestBody := ⟨.requestBodies, Components.requestBodies⟩

def parameter : ComponentKind Parameter := ⟨.parameters, Components.parameters⟩

def header : ComponentKind Header := ⟨.headers, Components.headers⟩

def securityScheme : ComponentKind SecurityScheme :=
  ⟨.securitySchemes, Components.securitySchemes⟩

def pathItem : ComponentKind PathItem := ⟨.pathItems, Components.pathItems⟩

end ComponentKind

/-- The object in place, or the object that a reference points to. -/
def resolve (kind : ComponentKind α) (doc : Document) (slot : RefOr α) :
    Except CompileCause α :=
  match slot with
  | .inline value => .ok value
  | .reference pointer =>
      match kind.sec.nameIn? pointer, doc.components with
      | some name, some components =>
          match (kind.entries components).get? name with
          | none => .error (.missingComponent kind.sec name)
          | some (.reference nested) => .error (.nestedReference kind.sec nested)
          | some (.inline value) => .ok value
      | _, _ => .error (.unsupportedReference pointer)

/-- The look-up in the declarations for a reference into the section of a kind. -/
def lookup? (kind : ComponentKind α) (slot : RefOr α) : Option (Section × String) := do
  let name ← kind.sec.nameIn? (← slot.pointer?)
  return (kind.sec, name)

end OpenApiTypings
