import Mathlib.Data.List.Pairwise
import OpenApiTypings.Proofs.Document.Places

/-!
# Null and absence

Most keys of a document take `null` for their default, so that an entry with that value can as
well be left out, wherever its object stands.  A text or a truth value must be given as such or
not at all: there `null` makes the whole document unreadable.
-/

namespace OpenApiTypings

open Decoder

variable {ρ : Type}

/-! ### Decoders of places -/

/-- A decoder that does not tell a null from its absence anywhere in a place. -/
def Respects (kind : ObjectKind) (key : String) (place : Role) (decode : Json → α) : Prop :=
  ∀ tree tree', DropsNull kind key place tree tree' → decode tree = decode tree'

namespace Respects

variable {kind : ObjectKind} {key : String} {place : Role} {decode : Decoder α}

theorem value (decode : Json → α) : Respects kind key .value decode := nofun

theorem optional (h : Respects kind key place decode) :
    Respects kind key place (Decoder.optional decode) := by
  intro tree tree' hdrops
  have hsame := h tree tree' hdrops
  rcases hdrops.cases_tree with ⟨_, _, rfl, rfl⟩ | ⟨_, _, rfl, rfl⟩ <;>
    exact congrArg (some <$> ·) hsame

theorem nullable (fallback : α) (h : Respects kind key place decode) :
    Respects kind key place (Decoder.nullable fallback decode) := by
  intro tree tree' hdrops
  have hsame := h tree tree' hdrops
  rcases hdrops.cases_tree with ⟨_, _, rfl, rfl⟩ | ⟨_, _, rfl, rfl⟩ <;> exact hsame

theorem refOr {owner : ObjectKind} (h : Respects kind key (.object owner) decode) :
    Respects kind key (.orReference owner) (Decoder.refOr decode) := by
  intro tree tree' hdrops
  cases hdrops with
  | orReference hdrops => rw [Decoder.refOr, Decoder.refOr, hdrops.pointer?_eq, h _ _ hdrops]

theorem list (h : Respects kind key place decode) :
    Respects kind key (.list place) (Decoder.list decode) := by
  intro tree tree' hdrops
  cases hdrops with
  | item hdrops =>
    simp only [Decoder.list, List.mapM_append, List.mapM_cons, h _ _ hdrops]

theorem table (h : Respects kind key place decode) :
    Respects kind key (.table place) (Decoder.table decode) := by
  intro tree tree' hdrops
  cases hdrops with
  | entry hdrops =>
    simp only [Decoder.table, List.mapM_append, List.mapM_cons, h _ _ hdrops]

end Respects

/-! ### Fields of records -/

/-- Setting one field leaves another one at its default. -/
def Independent (set set' : Json → ρ → Except ShapeError ρ) : Prop :=
  ∀ json r r', set' json r = .ok r' → set .null r = .ok r → set .null r' = .ok r'

/-- Each of the fields is left at its default when the other one is set. -/
structure Apart (f g : RecordField ρ) : Prop where
  left : Independent f.set g.set
  right : Independent g.set f.set

instance : Std.Symm (@Apart ρ) := ⟨fun _ _ h => ⟨h.right, h.left⟩⟩

theorem Independent.of {k k' : String} {value : Decoder α} {value' : Decoder β}
    {put : α → ρ → ρ} {put' : β → ρ → ρ} (h : ∀ v w r, put v (put' w r) = put' w (put v r)) :
    Independent (RecordField.of k value put).set (RecordField.of k' value' put').set := by
  intro json r r' hset hdefault
  simp only [RecordField.of] at hset hdefault ⊢
  cases hnull : value .null with
  | error e =>
    rw [hnull] at hdefault
    cases hdefault
  | ok v =>
    cases hjson : value' json with
    | error e =>
      rw [hjson] at hset
      cases hset
    | ok w =>
      rw [hjson] at hset
      rw [hnull] at hdefault
      have hput : put v r = r := Except.ok.inj hdefault
      have hput' : put' w r = r' := Except.ok.inj hset
      rw [← hput']
      exact congrArg Except.ok ((h v w r).trans (congrArg (put' w) hput))

/-- Fields that are put into different parts of a record. -/
@[simp]
theorem Apart.of {k k' : String} {value : Decoder α} {value' : Decoder β}
    {put : α → ρ → ρ} {put' : β → ρ → ρ} (h : ∀ v w r, put v (put' w r) = put' w (put v r)) :
    Apart (.of k value put) (.of k' value' put') :=
  ⟨.of h, .of fun w v r => (h v w r).symm⟩

@[simp]
theorem Apart.mandatory_left {f g : RecordField ρ} : Apart f.mandatory g ↔ Apart f g :=
  ⟨fun h => ⟨h.left, h.right⟩, fun h => ⟨h.left, h.right⟩⟩

@[simp]
theorem Apart.mandatory_right {f g : RecordField ρ} : Apart f g.mandatory ↔ Apart f g :=
  ⟨fun h => ⟨h.left, h.right⟩, fun h => ⟨h.left, h.right⟩⟩

/-- A field of a record is for a key of a kind of objects: it respects the place under the key,
and `null` is its default, unless the place is for a text or a truth value. -/
structure FieldFor (kind : ObjectKind) (key : String) (initial : ρ) (f : RecordField ρ)
    (entry : String × Role) : Prop where
  key_eq : f.key = entry.1
  respects : Respects kind key entry.2 f.set
  absent : entry.2 ≠ .plain → f.set .null initial = .ok initial

namespace FieldFor

variable {kind : ObjectKind} {key : String} {initial : ρ} {name : String} {place : Role}

theorem mandatory {f : RecordField ρ} {entry : String × Role}
    (h : FieldFor kind key initial f entry) : FieldFor kind key initial f.mandatory entry :=
  ⟨h.key_eq, h.respects, h.absent⟩

theorem plain {value : Decoder α} {put : α → ρ → ρ} :
    FieldFor kind key initial (.of name value put) (name, .plain) :=
  ⟨rfl, nofun, fun h => absurd rfl h⟩

theorem of {value : Decoder α} {put : α → ρ → ρ} (h : Respects kind key place value)
    (habsent : (RecordField.of name value put).set .null initial = .ok initial) :
    FieldFor kind key initial (.of name value put) (name, place) := by
  refine ⟨rfl, fun tree tree' hdrops => ?_, fun _ => habsent⟩
  funext record
  simp only [RecordField.of, h tree tree' hdrops]

/-- A field that is given `null` or a value. -/
theorem optional {value : Decoder α} {put : Option α → ρ → ρ} (h : Respects kind key place value)
    (habsent : (RecordField.of name value.optional put).set .null initial = .ok initial) :
    FieldFor kind key initial (.mandatory (.of name value.optional put)) (name, place) :=
  mandatory (.of h.optional habsent)

end FieldFor

/-- The fields of a record, in declared order, are for the keys of a kind of objects. -/
structure RecordFor (kind : ObjectKind) (key : String) (owner : ObjectKind)
    (fields : List (RecordField ρ)) (initial : ρ) : Prop where
  keys : List.Forall₂ (FieldFor kind key initial) fields owner.fields
  apart : fields.Pairwise Apart

namespace RecordFor

variable {kind owner : ObjectKind} {key : String} {fields : List (RecordField ρ)} {initial : ρ}

/-- The field of a key is found just when the kind has the key. -/
theorem find?_cases {entries : Table Role}
    (h : List.Forall₂ (FieldFor kind key initial) fields entries) (name : String) :
    fields.find? (·.key = name) = none ∧ entries.get? name = none ∨
      ∃ f place, fields.find? (·.key = name) = some f ∧ f.key = name ∧
        entries.get? name = some place ∧ FieldFor kind key initial f (name, place) := by
  induction h with
  | nil => exact .inl ⟨rfl, rfl⟩
  | @cons f entry fs entries hfield _ ih =>
    obtain ⟨entryKey, place⟩ := entry
    obtain rfl : f.key = entryKey := hfield.key_eq
    by_cases heq : name = f.key
    · subst heq
      refine .inr ⟨f, place, by simp, rfl, ?_, hfield⟩
      rw [Table.get?, List.lookup_cons_self]
    · rw [List.find?_cons_of_neg (by simpa using Ne.symm heq), Table.get?, List.lookup_cons,
        beq_eq_false_iff_ne.mpr heq]
      exact ih

theorem putEntries_append (before after : List (String × Json)) (record : ρ) :
    putEntries fields (before ++ after) record =
      (putEntries fields before record).bind (putEntries fields after) := by
  induction before generalizing record with
  | nil => rfl
  | cons entry rest ih =>
    obtain ⟨name, json⟩ := entry
    simp only [List.cons_append, putEntries]
    cases fields.find? (·.key = name) with
    | none => exact ih record
    | some f =>
      cases hset : f.set json record with
      | error e => simp [hset, bind, Except.bind]
      | ok next => simpa [hset, bind, Except.bind] using ih next

/-- A field stays at its default while entries of other keys are put into a record. -/
theorem set_null_putEntries (hapart : fields.Pairwise Apart) {f : RecordField ρ} (hf : f ∈ fields)
    {entries : List (String × Json)} (hkeys : f.key ∉ Table.keys entries) {record record' : ρ}
    (hput : putEntries fields entries record = .ok record')
    (hdefault : f.set .null record = .ok record) : f.set .null record' = .ok record' := by
  induction entries generalizing record with
  | nil =>
    cases hput
    exact hdefault
  | cons entry rest ih =>
    obtain ⟨name, json⟩ := entry
    obtain ⟨hname, hrest⟩ : f.key ≠ name ∧ f.key ∉ Table.keys rest := by
      simpa [Table.keys] using hkeys
    simp only [putEntries] at hput
    cases hfind : fields.find? (·.key = name) with
    | none =>
      rw [hfind] at hput
      exact ih hrest hput hdefault
    | some g =>
      rw [hfind] at hput
      have hg : g.key = name := by simpa using List.find?_some hfind
      have hne : f ≠ g := fun heq => hname (heq ▸ hg)
      have hindependent := (hapart.forall hf (List.mem_of_find?_eq_some hfind) hne).left
      cases hset : g.set json record with
      | error e => simp [hset, bind, Except.bind] at hput
      | ok next =>
        simp only [hset, bind, Except.bind] at hput
        exact ih hrest hput (hindependent json record next hset hdefault)

/-- The items of a list in which one differs, where its field does not tell the difference. -/
theorem putItems_eq {name : String} {count total : Nat} {tree tree' : Json} {after : List Json}
    {before : List Json} {f : RecordField ρ} (hfield : fields[before.length]? = some f)
    (hset : f.set tree = f.set tree') (index : Nat) (record : ρ) :
    putItems name count total index fields (before ++ tree :: after) record =
      putItems name count total index fields (before ++ tree' :: after) record := by
  induction before generalizing fields index record with
  | nil =>
    cases fields with
    | nil => cases hfield
    | cons g gs =>
      cases hfield
      simp only [List.nil_append, putItems, hset]
  | cons item items ih =>
    cases fields with
    | nil => cases hfield
    | cons g gs =>
      simp only [List.cons_append, putItems]
      exact bind_congr fun next => ih hfield (index + 1) next

/-- A record does not tell a null from its absence, unless it is under a key for a text or a truth
value. -/
theorem respects (h : RecordFor kind key owner fields initial) (hplain : ¬ kind.Plain key)
    (name : String) : Respects kind key (.object owner) (record name fields initial) := by
  intro tree tree' hdrops
  cases hdrops with
  | @here before after hkey =>
    have hput : ∀ entries, record name fields initial (.object entries) =
        putEntries fields entries initial := fun _ => rfl
    rw [hput, hput, putEntries_append, putEntries_append]
    cases hbefore : putEntries fields before initial with
    | error e => rfl
    | ok next =>
      change putEntries fields ((key, .null) :: after) next = putEntries fields after next
      rw [putEntries]
      rcases find?_cases h.keys key with ⟨hfind, -⟩ | ⟨f, place, hfind, hname, hplace, hfor⟩
      · rw [hfind]
      · -- no entry in front is for the same key, so the field is still at its default
        have hplace' : place ≠ .plain := fun heq => hplain (hplace.trans (congrArg some heq))
        have hkeys : f.key ∉ Table.keys before := fun hmem => hkey (by simp_all [Table.keys])
        have hnull := set_null_putEntries h.apart (List.mem_of_find?_eq_some hfind) hkeys hbefore
          (hfor.absent hplace')
        rw [hfind]
        simp only [hnull]
        rfl
  | @field _ fieldName place tree tree' before after hplace hdrops =>
    have hput : ∀ entries, record name fields initial (.object entries) =
        putEntries fields entries initial := fun _ => rfl
    rw [hput, hput, putEntries_append, putEntries_append]
    refine congrArg _ (funext fun next => ?_)
    rw [putEntries, putEntries]
    rcases find?_cases h.keys fieldName with ⟨-, hnone⟩ | ⟨f, place', hfind, -, hplace', hfor⟩
    · rw [hnone] at hplace
      cases hplace
    · rw [hplace'] at hplace
      cases hplace
      rw [hfind]
      simp only [hfor.respects _ _ hdrops]
  | @position _ fieldName place tree tree' before after hplace hdrops =>
    have hput : ∀ items, record name fields initial (.array items) =
        putItems name fields.length items.length 0 fields items initial := fun _ => rfl
    have hlength := h.keys.length_eq
    obtain ⟨hlt, hentry⟩ := List.getElem?_eq_some_iff.mp hplace
    have hfor := h.keys.get (hlength ▸ hlt) hlt
    simp only [List.get_eq_getElem, hentry] at hfor
    rw [hput, hput, List.length_append, List.length_append, List.length_cons, List.length_cons]
    have hitem := List.getElem?_eq_getElem (hlength ▸ hlt)
    exact putItems_eq hitem (hfor.respects _ _ hdrops) 0 initial

end RecordFor

/-! ### Objects of a document -/

section Objects

variable {kind : ObjectKind} {key : String} (hplain : ¬ kind.Plain key)
include hplain

open FieldFor

/-- A record with its fields for the keys of a kind, each put into a part of its own. -/
theorem respects_record {owner : ObjectKind} {name : String} {fields : List (RecordField ρ)}
    {initial : ρ} (hkeys : List.Forall₂ (FieldFor kind key initial) fields owner.fields)
    (hapart : fields.Pairwise Apart) :
    Respects kind key (.object owner) (record name fields initial) :=
  RecordFor.respects ⟨hkeys, hapart⟩ hplain name

theorem ServerVariable.respects : Respects kind key (.object .serverVariable) decode :=
  respects_record hplain
    (.cons (.of (.value _) rfl) <| .cons plain <| .cons (.of (.value _) rfl) .nil)
    (by simp)

theorem Server.respects : Respects kind key (.object .server) decode :=
  respects_record hplain
    (.cons plain <| .cons plain <|
      .cons (.of ((ServerVariable.respects hplain).table.nullable []) rfl) .nil)
    (by simp)

theorem MediaType.respects : Respects kind key (.object .mediaType) decode :=
  respects_record hplain
    (.cons (optional (.value _) rfl) .nil)
    (by simp)

theorem Parameter.respects : Respects kind key (.object .parameter) decode :=
  respects_record hplain
    (.cons plain <| .cons plain <| .cons plain <| .cons (optional (.value _) rfl) <|
      .cons (.of ((MediaType.respects hplain).table.nullable []) rfl) .nil)
    (by simp)

theorem Header.respects : Respects kind key (.object .header) decode :=
  respects_record hplain
    (.cons plain <| .cons (optional (.value _) rfl) <|
      .cons (.of ((MediaType.respects hplain).table.nullable []) rfl) .nil)
    (by simp)

theorem RequestBody.respects : Respects kind key (.object .requestBody) decode :=
  respects_record hplain
    (.cons plain <| .cons (.of ((MediaType.respects hplain).table.nullable []) rfl) .nil)
    (by simp)

theorem Response.respects : Respects kind key (.object .response) decode :=
  respects_record hplain
    (.cons (optional (.value _) rfl) <|
      .cons (.of ((Header.respects hplain).refOr.table.nullable []) rfl) <|
      .cons (.of ((MediaType.respects hplain).table.nullable []) rfl) .nil)
    (by simp)

theorem Operation.respects : Respects kind key (.object .operation) decode :=
  respects_record hplain
    (.cons (optional (.value _) rfl) <|
      .cons (.of ((Parameter.respects hplain).refOr.list.nullable []) rfl) <|
      .cons (optional (RequestBody.respects hplain).refOr rfl) <|
      .cons (.of ((Response.respects hplain).refOr.table.nullable []) rfl) <|
      .cons (.of (.value _) rfl) <|
      .cons (.of ((Server.respects hplain).list.nullable []) rfl) .nil)
    (by simp)

theorem PathItem.respects : Respects kind key (.object .pathItem) decode :=
  respects_record hplain
    (.cons (optional (Operation.respects hplain) rfl) <|
      .cons (optional (Operation.respects hplain) rfl) <|
      .cons (optional (Operation.respects hplain) rfl) <|
      .cons (optional (Operation.respects hplain) rfl) <|
      .cons (optional (Operation.respects hplain) rfl) <|
      .cons (optional (Operation.respects hplain) rfl) <|
      .cons (optional (Operation.respects hplain) rfl) <|
      .cons (optional (Operation.respects hplain) rfl) <|
      .cons (.of ((Parameter.respects hplain).refOr.list.nullable []) rfl) <|
      .cons (.of ((Server.respects hplain).list.nullable []) rfl) .nil)
    (by simp [PathItem.methodField])

theorem OAuthFlow.respects : Respects kind key (.object .oauthFlow) decode :=
  respects_record hplain
    (.cons plain <| .cons plain <| .cons plain <| .cons (.of (.value _) rfl) .nil)
    (by simp)

theorem OAuthFlows.respects : Respects kind key (.object .oauthFlows) decode :=
  respects_record hplain
    (.cons (optional (OAuthFlow.respects hplain) rfl) <|
      .cons (optional (OAuthFlow.respects hplain) rfl) <|
      .cons (optional (OAuthFlow.respects hplain) rfl) <|
      .cons (optional (OAuthFlow.respects hplain) rfl) .nil)
    (by simp [OAuthFlows.flowField])

theorem SecurityScheme.respects : Respects kind key (.object .securityScheme) decode :=
  respects_record hplain
    (.cons plain <| .cons plain <| .cons plain <| .cons plain <| .cons plain <| .cons plain <|
      .cons plain <| .cons (optional (OAuthFlows.respects hplain) rfl) .nil)
    (by simp)

theorem Components.respects : Respects kind key (.object .components) decode :=
  respects_record hplain
    (.cons (.of (.value _) rfl) <|
      .cons (.of ((Response.respects hplain).refOr.table.nullable []) rfl) <|
      .cons (.of ((RequestBody.respects hplain).refOr.table.nullable []) rfl) <|
      .cons (.of ((Parameter.respects hplain).refOr.table.nullable []) rfl) <|
      .cons (.of ((Header.respects hplain).refOr.table.nullable []) rfl) <|
      .cons (.of ((SecurityScheme.respects hplain).refOr.table.nullable []) rfl) <|
      .cons (.of ((PathItem.respects hplain).refOr.table.nullable []) rfl) .nil)
    (by simp)

theorem Info.respects : Respects kind key (.object .info) decode :=
  respects_record hplain
    (.cons (.of (.value _) rfl) <| .cons (.of (.value _) rfl) .nil)
    (by simp)

theorem Document.respects : Respects kind key (.object .document) decode :=
  respects_record hplain
    (.cons (.of (.value _) rfl) <| .cons (.of ((Info.respects hplain).nullable {}) rfl) <|
      .cons (.of ((PathItem.respects hplain).refOr.table.nullable []) rfl) <|
      .cons (.of ((PathItem.respects hplain).refOr.table.nullable []) rfl) <|
      .cons (optional (Components.respects hplain) rfl) <|
      .cons (.of ((Server.respects hplain).list.nullable []) rfl) <|
      .cons (.of (.value _) rfl) .nil)
    (by simp)

end Objects

/-! ### Objects with texts and truth values -/

namespace ObjectKind

/-- A document with one security scheme. -/
def aroundScheme (scheme : Json) : Json :=
  .object [("components", .object [("securitySchemes", .object [("name", scheme)])])]

/-- A document with one object of a kind, for the kinds with keys for texts and truth values. -/
def around (kind : ObjectKind) (object : Json) : Json :=
  match kind with
  | .server => .object [("servers", .array [object])]
  | .serverVariable =>
      .object [("servers", .array [.object [("variables", .object [("name", object)])]])]
  | .parameter => .object [("components", .object [("parameters", .object [("name", object)])])]
  | .requestBody =>
      .object [("components", .object [("requestBodies", .object [("name", object)])])]
  | .header => .object [("components", .object [("headers", .object [("name", object)])])]
  | .securityScheme => aroundScheme object
  | .oauthFlow => aroundScheme (.object [("flows", .object [("implicit", object)])])
  | _ => object

end ObjectKind

namespace DropsNull

variable {kind owner : ObjectKind} {key name : String} {place : Role} {tree tree' : Json}

theorem onlyNull : DropsNull kind key (.object kind) (.object [(key, .null)]) (.object []) :=
  @here kind key [] [] List.not_mem_nil

theorem onlyField (hplace : owner.fields.get? name = some place)
    (h : DropsNull kind key place tree tree') :
    DropsNull kind key (.object owner) (.object [(name, tree)]) (.object [(name, tree')]) :=
  @field kind key owner name place tree tree' [] [] hplace h

theorem onlyItem (h : DropsNull kind key place tree tree') :
    DropsNull kind key (.list place) (.array [tree]) (.array [tree']) :=
  @item kind key place tree tree' [] [] h

theorem onlyEntry (h : DropsNull kind key place tree tree') :
    DropsNull kind key (.table place) (.object [(name, tree)]) (.object [(name, tree')]) :=
  @entry kind key place name tree tree' [] [] h

theorem inComponent {sec : String}
    (hsection : ObjectKind.components.fields.get? sec = some (.table (.orReference owner)))
    (h : DropsNull kind key (.object owner) tree tree') :
    DropsNull kind key (.object .document)
      (.object [("components", .object [(sec, .object [(name, tree)])])])
      (.object [("components", .object [(sec, .object [(name, tree')])])]) :=
  onlyField rfl (onlyField hsection (onlyEntry (.orReference h)))

theorem around (h : kind.Plain key) :
    DropsNull kind key (.object .document) (kind.around (.object [(key, .null)]))
      (kind.around (.object [])) := by
  have hmem : (key, Role.plain) ∈ kind.fields := Table.mem_of_get? h
  cases kind with
  | server => exact onlyField rfl (onlyItem onlyNull)
  | serverVariable => exact onlyField rfl (onlyItem (onlyField rfl (onlyEntry onlyNull)))
  | parameter => exact inComponent rfl onlyNull
  | requestBody => exact inComponent rfl onlyNull
  | header => exact inComponent rfl onlyNull
  | securityScheme => exact inComponent rfl onlyNull
  | oauthFlow => exact inComponent rfl (onlyField rfl (onlyField rfl onlyNull))
  | _ => simp [ObjectKind.fields] at hmem

end DropsNull

/-- `null` for a text or a truth value is refused where the empty object is read. -/
theorem isOk_around (kind : ObjectKind) : ∀ entry ∈ kind.fields, entry.2 = .plain →
    (Document.ofJson (kind.around (.object [(entry.1, .null)]))).isOk = false ∧
      (Document.ofJson (kind.around (.object []))).isOk = true := by
  cases kind <;> decide

/-- To leave out an entry with `null` of any object of a kind, wherever the object stands in a
document, changes neither the document that is read nor the error, just when the key is not one
for a text or a truth value. -/
theorem ofJson_dropsNull_iff (kind : ObjectKind) (key : String) :
    (∀ tree tree', DropsNull kind key (.object .document) tree tree' →
      Document.ofJson tree = Document.ofJson tree') ↔ ¬ kind.Plain key := by
  constructor
  · intro h hplain
    have hsame := h _ _ (DropsNull.around hplain)
    obtain ⟨hrefused, hread⟩ := isOk_around kind _ (Table.mem_of_get? hplain) rfl
    rw [hsame, hread] at hrefused
    cases hrefused
  · intro hplain tree tree' hdrops
    have hdecode := Document.respects hplain tree tree' hdrops
    unfold Document.ofJson
    rcases hdrops.cases_tree with ⟨_, _, rfl, rfl⟩ | ⟨_, _, rfl, rfl⟩ <;> rw [hdecode] <;> rfl

/-- A server without a description is read, and a server whose description is `null` is not. -/
theorem not_ofJson_dropsNull :
    ¬ ∀ (kind : ObjectKind) (key : String) (tree tree' : Json),
      DropsNull kind key (.object .document) tree tree' →
        Document.ofJson tree = Document.ofJson tree' := by
  intro h
  have hdrops : DropsNull .server "description" (.object .document)
      (.object [("servers", .array [.object [("description", .null), ("url", .string "u")]])])
      (.object [("servers", .array [.object [("url", .string "u")]])]) :=
    .onlyField rfl (.onlyItem (@DropsNull.here _ _ [] _ (by decide)))
  have hsame := congrArg Except.isOk (h _ _ _ _ hdrops)
  exact absurd hsame (by decide)

end OpenApiTypings
