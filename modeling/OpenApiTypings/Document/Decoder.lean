import OpenApiTypings.Document.Basic
import OpenApiTypings.Document.Error

/-!
# Decoders of JSON trees

A decoder turns a JSON value into a value of the document model, or says why the
value has the wrong shape.  Records are decoded field by field: from an object, in
the order of its keys, or from a list that gives the fields in their declared order.
The first wrong field decides.  Fields that a record does not know are passed over,
and fields that are not given keep their default.
-/

namespace OpenApiTypings

abbrev Decoder (α : Type) := Json → Except ShapeError α

namespace Decoder

/-! ### Values -/

def any : Decoder Json := .ok

def text : Decoder String
  | .string s => .ok s
  | other => .error (.wrongType other .string)

def truth : Decoder Bool
  | .bool b => .ok b
  | other => .error (.wrongType other .boolean)

def list (item : Decoder α) : Decoder (List α)
  | .array items => items.mapM item
  | other => .error (.wrongType other .sequence)

/-- A mapping, entry by entry in the order of its keys. -/
def table (value : Decoder α) : Decoder (Table α)
  | .object entries => entries.mapM fun (key, json) => do return (key, ← value json)
  | other => .error (.wrongType other .map)

/-- `null`, or a value. -/
def optional (value : Decoder α) : Decoder (Option α)
  | .null => .ok none
  | other => some <$> value other

/-- A value, or `null` in place of a default. -/
def nullable (fallback : α) (value : Decoder α) : Decoder α
  | .null => .ok fallback
  | other => value other

/-- The text of a scalar of any kind; lists, mappings and `null` have none. -/
def scalarText : Decoder (Option String)
  | .string s => .ok (some s)
  | .number n => .ok (some n.text)
  | .bool b => .ok (some (if b then "true" else "false"))
  | .null => .ok none
  | .array _ => .ok none
  | .object _ => .ok none

/-! ### References -/

/-- The pointer of a reference: the text under `$ref`, or the one item of a list. -/
def pointer? : Json → Option String
  | .object entries => (Table.get? entries "$ref").bind Json.string?
  | .array [.string pointer] => some pointer
  | _ => none

/-- A reference if the value has the form of one, and a value in place otherwise.
What is wrong with a value in place is not told. -/
def refOr (value : Decoder α) : Decoder (RefOr α) := fun json =>
  match pointer? json with
  | some pointer => .ok (.reference pointer)
  | none =>
      match value json with
      | .ok inline => .ok (.inline inline)
      | .error _ => .error .neitherReferenceNorInline

/-- A schema, or a reference to one.  Every value is a schema. -/
def schemaSlot : Decoder (RefOr Json) := refOr any

/-! ### Records -/

/-- A field of a record: its key, how its value is put into the record, and whether
a record given as a list may end before it. -/
structure RecordField (ρ : Type) where
  key : String
  set : Json → ρ → Except ShapeError ρ
  endsBefore : Bool := true

/-- A field with a decoder and a way to put the decoded value into the record. -/
def RecordField.of (key : String) (value : Decoder α) (put : α → ρ → ρ) :
    RecordField ρ where
  key := key
  set json record := do return put (← value json) record

/-- The same field, before which a record given as a list may not end. -/
def RecordField.mandatory (field : RecordField ρ) : RecordField ρ :=
  { field with endsBefore := false }

/-- Puts the entries of an object into a record, in order. -/
def putEntries (fields : List (RecordField ρ)) :
    List (String × Json) → ρ → Except ShapeError ρ
  | [], record => .ok record
  | (key, json) :: rest, record => do
      match fields.find? (·.key = key) with
      | some field => putEntries fields rest (← field.set json record)
      | none => putEntries fields rest record

/-- Puts the items of a list into the fields of a record, in order; `total` is the
length of the list and `index` the position reached. -/
def putItems (kind : String) (count total : Nat) :
    Nat → List (RecordField ρ) → List Json → ρ → Except ShapeError ρ
  | _, [], [], record => .ok record
  | _, [], _ :: _, _ => .error (.wrongLength total .fewerItems)
  | index, field :: fields, [], record =>
      if field.endsBefore then putItems kind count total (index + 1) fields [] record
      else .error (.wrongLength index (.recordItems kind count))
  | index, field :: fields, item :: items, record => do
      putItems kind count total (index + 1) fields items (← field.set item record)

/-- A record of a kind, with its fields in declared order and the record in which
every field has its default. -/
def record (kind : String) (fields : List (RecordField ρ)) (initial : ρ) : Decoder ρ
  | .object entries => putEntries fields entries initial
  | .array items => putItems kind fields.length items.length 0 fields items initial
  | other => .error (.wrongType other (.record kind))

end Decoder

end OpenApiTypings
