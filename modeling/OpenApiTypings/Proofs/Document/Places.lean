import OpenApiTypings.Document.Decode
import OpenApiTypings.Proofs.Table

/-!
# Places of a document

A document is a tree of objects of a few kinds, and each kind has its keys.  The kinds and what
stands under their keys are listed here once, so that a place of a tree can be told without
decoding it.  A tree *drops a null* when an entry with that value is left out of one object
of a kind, wherever that object stands.
-/

namespace OpenApiTypings

/-! ### Kinds of objects -/

/-- The kinds of objects that a document is made of. -/
inductive ObjectKind where
  | document
  | info
  | server
  | serverVariable
  | pathItem
  | operation
  | parameter
  | requestBody
  | response
  | header
  | mediaType
  | components
  | securityScheme
  | oauthFlows
  | oauthFlow
  deriving DecidableEq

/-- What a place of a document is for. -/
inductive Role where
  /-- A text or a truth value, and nothing else. -/
  | plain
  /-- A value without objects of a document inside. -/
  | value
  /-- An object of a kind. -/
  | object (kind : ObjectKind)
  /-- An object of a kind, or a reference to one. -/
  | orReference (kind : ObjectKind)
  | list (item : Role)
  | table (entry : Role)
  deriving DecidableEq

/-- The keys of a kind of objects in declared order, with their places. -/
def ObjectKind.fields : ObjectKind → Table Role
  | .document =>
      [("openapi", .value), ("info", .object .info), ("paths", .table (.orReference .pathItem)),
        ("webhooks", .table (.orReference .pathItem)), ("components", .object .components),
        ("servers", .list (.object .server)), ("security", .value)]
  | .info => [("title", .value), ("version", .value)]
  | .server =>
      [("url", .plain), ("description", .plain), ("variables", .table (.object .serverVariable))]
  | .serverVariable => [("default", .value), ("description", .plain), ("enum", .value)]
  | .pathItem =>
      [("get", .object .operation), ("put", .object .operation), ("post", .object .operation),
        ("delete", .object .operation), ("options", .object .operation),
        ("head", .object .operation), ("patch", .object .operation),
        ("trace", .object .operation), ("parameters", .list (.orReference .parameter)),
        ("servers", .list (.object .server))]
  | .operation =>
      [("operationId", .value), ("parameters", .list (.orReference .parameter)),
        ("requestBody", .orReference .requestBody),
        ("responses", .table (.orReference .response)), ("security", .value),
        ("servers", .list (.object .server))]
  | .parameter =>
      [("name", .plain), ("in", .plain), ("required", .plain), ("schema", .value),
        ("content", .table (.object .mediaType))]
  | .requestBody => [("required", .plain), ("content", .table (.object .mediaType))]
  | .response =>
      [("description", .value), ("headers", .table (.orReference .header)),
        ("content", .table (.object .mediaType))]
  | .header =>
      [("required", .plain), ("schema", .value), ("content", .table (.object .mediaType))]
  | .mediaType => [("schema", .value)]
  | .components =>
      [("schemas", .value), ("responses", .table (.orReference .response)),
        ("requestBodies", .table (.orReference .requestBody)),
        ("parameters", .table (.orReference .parameter)),
        ("headers", .table (.orReference .header)),
        ("securitySchemes", .table (.orReference .securityScheme)),
        ("pathItems", .table (.orReference .pathItem))]
  | .securityScheme =>
      [("type", .plain), ("description", .plain), ("name", .plain), ("in", .plain),
        ("scheme", .plain), ("bearerFormat", .plain), ("openIdConnectUrl", .plain),
        ("flows", .object .oauthFlows)]
  | .oauthFlows =>
      [("implicit", .object .oauthFlow), ("password", .object .oauthFlow),
        ("clientCredentials", .object .oauthFlow), ("authorizationCode", .object .oauthFlow)]
  | .oauthFlow =>
      [("authorizationUrl", .plain), ("tokenUrl", .plain), ("refreshUrl", .plain),
        ("scopes", .value)]

/-- The key is one for a text or a truth value. -/
def ObjectKind.Plain (kind : ObjectKind) (key : String) : Prop :=
  kind.fields.get? key = some .plain

instance (kind : ObjectKind) (key : String) : Decidable (kind.Plain key) :=
  inferInstanceAs (Decidable (_ = _))

/-! ### Dropping a null -/

/-- One object of the kind, at or inside a place, has a key with `null` for its value in the first
tree and does not have the key in the second.  All else is the same.  An object may be given as
the list of its values. -/
inductive DropsNull (kind : ObjectKind) (key : String) : Role → Json → Json → Prop
  | here {before after : List (String × Json)} (hkey : key ∉ Table.keys (before ++ after)) :
      DropsNull kind key (.object kind) (.object (before ++ (key, .null) :: after))
        (.object (before ++ after))
  | field {owner : ObjectKind} {name : String} {place : Role} {tree tree' : Json}
      {before after : List (String × Json)} (hplace : owner.fields.get? name = some place)
      (h : DropsNull kind key place tree tree') :
      DropsNull kind key (.object owner) (.object (before ++ (name, tree) :: after))
        (.object (before ++ (name, tree') :: after))
  | position {owner : ObjectKind} {name : String} {place : Role} {tree tree' : Json}
      {before after : List Json} (hplace : owner.fields[before.length]? = some (name, place))
      (h : DropsNull kind key place tree tree') :
      DropsNull kind key (.object owner) (.array (before ++ tree :: after))
        (.array (before ++ tree' :: after))
  | orReference {owner : ObjectKind} {tree tree' : Json}
      (h : DropsNull kind key (.object owner) tree tree') :
      DropsNull kind key (.orReference owner) tree tree'
  | item {place : Role} {tree tree' : Json} {before after : List Json}
      (h : DropsNull kind key place tree tree') :
      DropsNull kind key (.list place) (.array (before ++ tree :: after))
        (.array (before ++ tree' :: after))
  | entry {place : Role} {name : String} {tree tree' : Json} {before after : List (String × Json)}
      (h : DropsNull kind key place tree tree') :
      DropsNull kind key (.table place) (.object (before ++ (name, tree) :: after))
        (.object (before ++ (name, tree') :: after))

namespace DropsNull

variable {kind owner : ObjectKind} {key : String} {place : Role} {tree tree' : Json}

/-- Both trees are objects, or both are lists. -/
theorem cases_tree (h : DropsNull kind key place tree tree') :
    (∃ entries entries', tree = .object entries ∧ tree' = .object entries') ∨
      ∃ items items', tree = .array items ∧ tree' = .array items' := by
  induction h with
  | here => exact .inl ⟨_, _, rfl, rfl⟩
  | field => exact .inl ⟨_, _, rfl, rfl⟩
  | position => exact .inr ⟨_, _, rfl, rfl⟩
  | orReference _ ih => exact ih
  | item => exact .inr ⟨_, _, rfl, rfl⟩
  | entry => exact .inl ⟨_, _, rfl, rfl⟩

/-- No key of a kind is the key of a reference. -/
theorem fields_get?_ref (owner : ObjectKind) : owner.fields.get? "$ref" = none := by
  cases owner <;> decide

theorem pointer?_object (entries : Table Json) :
    Decoder.pointer? (.object entries) = (entries.get? "$ref").bind Json.string? := rfl

/-- A list is a reference just when its only item is a text. -/
theorem pointer?_array_of_not_string {before after : List Json}
    (h : ∀ text, tree ≠ .string text) :
    Decoder.pointer? (.array (before ++ tree :: after)) = none := by
  unfold Decoder.pointer?
  split
  · contradiction
  · rename_i pointer heq
    obtain ⟨rfl, htree⟩ : before = [] ∧ tree = .string pointer := by
      cases before with
      | nil => exact ⟨rfl, (List.cons.inj (Json.array.inj heq)).1⟩
      | cons => simp at heq
    exact absurd htree (h pointer)
  · rfl

theorem ne_string (h : DropsNull kind key place tree tree') (text : String) :
    tree ≠ .string text ∧ tree' ≠ .string text := by
  rcases h.cases_tree with ⟨_, _, rfl, rfl⟩ | ⟨_, _, rfl, rfl⟩ <;> exact ⟨nofun, nofun⟩

/-- An object is a reference to the same as it was. -/
theorem pointer?_eq (h : DropsNull kind key (.object owner) tree tree') :
    Decoder.pointer? tree = Decoder.pointer? tree' := by
  cases h with
  | @here before after hkey =>
    rw [pointer?_object, pointer?_object]
    by_cases href : key = "$ref"
    · subst href
      have hnone := Table.get?_eq_none_of_notMem hkey
      have hbefore : Table.get? before "$ref" = none :=
        Table.get?_eq_none_of_notMem fun hmem => hkey (by simp_all [Table.keys])
      rw [hnone, Table.get?_append_cons_self hbefore]
      rfl
    · rw [Table.get?_append_cons_of_ne (Ne.symm href)]
  | @field _ name _ _ _ _ _ hplace _ =>
    have hname : "$ref" ≠ name := by
      rintro rfl
      rw [fields_get?_ref] at hplace
      cases hplace
    rw [pointer?_object, pointer?_object, Table.get?_append_cons_of_ne hname,
      Table.get?_append_cons_of_ne hname]
  | position _ hdrops =>
    rw [pointer?_array_of_not_string fun text => (hdrops.ne_string text).1,
      pointer?_array_of_not_string fun text => (hdrops.ne_string text).2]

end DropsNull

end OpenApiTypings
