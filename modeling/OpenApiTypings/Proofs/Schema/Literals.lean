import OpenApiTypings.Proofs.Schema.Keys
import OpenApiTypings.Proofs.Type.Literals

/-!
# Literals of compiled types

The texts of a schema come into the text of its type inside quoted literals, with one
exception: what a pattern says of the beginning of keys is put into a template as it stands.
So a literal is broken over two lines just where a pattern with a line break gives a template.
-/

namespace OpenApiTypings.Schema

open Relation (ReflTransGen)
open TypeExpr (WritesLiteral)

theorem keptInTypes_legible : KeptInTypes fun _ type => type.Legible where
  composes _ := TypeExpr.composes_legible
  enumRef _ hname := Text.shows_of_bare hname.isBare
  component _ name := Section.shows_lookupText .schemas name

theorem keptInTypes_writesLiteral (allowed : KeyType → Prop) :
    KeptInTypesWith False allowed fun _ type =>
      ∀ token ∈ type.literals, WritesLiteral allowed token where
  composes _ := TypeExpr.composes_writesLiteral allowed
  enumRef _ _ := nofun
  component _ name := TypeExpr.writesLiteral_component .schemas name

/-- A pattern of an object node on the way admits further properties with keys of the type. -/
def GivesKeysAlong (schemas : Table (RefOr Json)) (start : Call) (key : KeyType) : Prop :=
  ∃ node scope, ReflTransGen (Calls schemas) start (.node node scope) ∧ node.isObject = true ∧
    node.GivesKeys key

variable (schemas : Table (RefOr Json)) (start : Call)

theorem legible_outcome (registry : Registry) :
    ((outcome schemas start).run registry).value.Legible := by
  obtain ⟨-, hvalue⟩ := keptInTypes_legible.ensures_along
    (fun node _ _ _ => ⟨nofun, node.printable_of_givesKeys⟩) .refl registry
  exact hvalue _ (Registry.Reaches.refl _)

/-- A literal of a compiled type is a quoted text or the literal of a key type that a pattern on
the way gives. -/
theorem writesLiteral_outcome (registry : Registry) :
    ∀ token ∈ ((outcome schemas start).run registry).value.literals,
      WritesLiteral (GivesKeysAlong schemas start) token := by
  obtain ⟨-, hvalue⟩ := (keptInTypes_writesLiteral (GivesKeysAlong schemas start)).ensures_along
    (fun node scope hnode hobject => ⟨nofun, fun key hkey => ⟨node, scope, hnode, hobject, hkey⟩⟩)
    .refl registry
  exact hvalue _ (Registry.Reaches.refl _)

end OpenApiTypings.Schema
