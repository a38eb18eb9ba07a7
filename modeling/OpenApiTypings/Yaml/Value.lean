import OpenApiTypings.Json.Basic
import OpenApiTypings.Yaml.Node
import OpenApiTypings.Yaml.Scalar

/-!
# Values of YAML sources

A node stands for a value: references are replaced by the values of their anchored
nodes, and plain scalars by what they stand for.  Tags of the document's own stay
with their values.

A mapping may not have a key twice.  Values may be nested only so deep, which refuses
a reference inside its own anchor, and references may be followed only so often.
-/

namespace OpenApiTypings.Yaml

inductive Value where
  | scalar (s : Scalar)
  | sequence (items : List Value)
  | mapping (entries : List (Value × Value))
  | tagged (tag : String) (value : Value)
  deriving Repr

namespace Value

instance : Inhabited Value := ⟨.scalar .null⟩

/-! ### Equality -/

/-- Scalars are the same when their values are equal; a zero has no sign. -/
def sameScalar : Scalar → Scalar → Bool
  | .number (.double x), .number (.double y) => x = y || (x.isZero && y.isZero)
  | a, b => a = b

mutual

/-- Values are the same when they have the same parts; the order of entries does not
matter. -/
def same : Value → Value → Bool
  | .scalar a, .scalar b => sameScalar a b
  | .sequence xs, .sequence ys => sameItems xs ys
  | .mapping xs, .mapping ys => xs.length = ys.length && sameEntries xs ys
  | .tagged s a, .tagged t b => s = t && same a b
  | _, _ => false

def sameItems : List Value → List Value → Bool
  | [], [] => true
  | x :: xs, y :: ys => same x y && sameItems xs ys
  | _, _ => false

def sameEntries : List (Value × Value) → List (Value × Value) → Bool
  | [], _ => true
  | (key, value) :: rest, others =>
      others.any (fun other => same key other.1 && same value other.2) &&
        sameEntries rest others

end

/-! ### Construction -/

/-- A step of construction.  The state is the number of references followed. -/
abbrev Construct := StateT Nat (Except Fault)

/-- The anchored nodes of a document, and how many references may be followed. -/
structure Anchors where
  nodes : List (Nat × Node)
  limit : Nat

/-- Constructs the value of a node inside another one; the truth value says that the
tag of the node has been seen to, or that none is looked for. -/
abbrev Child := Bool → Node → Construct Value

def referencesPerMark : Nat := 100

def maxNesting : Nat := 128

def follow (anchors : Anchors) (anchor : Nat) : Construct Node := do
  let followed := (← get) + 1
  set followed
  if anchors.limit < followed then throw .tooRepetitive
  else
    match List.lookup anchor anchors.nodes.reverse with
    | some node => return node
    | none => throw .unknownAnchor

/-- Another exclamation mark of a tag does not count either. -/
def tagName (tag : String) : String :=
  match tag.toList with
  | '!' :: c :: rest => String.ofList (c :: rest)
  | _ => tag

def ofScalar (settled : Bool) (props : Properties) (text : String) (plain : Bool) :
    Except Fault Scalar :=
  match props.tag, settled with
  | some tag, false => Scalar.ofTagged tag text plain
  | _, _ => if plain then Scalar.ofPlain text else .ok (.text text)

def ofEntries (child : Child) (settled : Bool) :
    List (Value × Value) → List (Node × Node) → Construct (List (Value × Value))
  | done, [] => return done.reverse
  | done, (keyNode, valueNode) :: rest => do
      let key ← child settled keyNode
      if done.any fun entry => same key entry.1 then throw .duplicateKey
      else
        let value ← child false valueNode
        ofEntries child settled ((key, value) :: done) rest

/-- The value of a node's content; without a child, collections are nested too
deep. -/
def ofContent (child : Option Child) (settled : Bool) : Node → Construct Value
  | .reference _ => throw .unknownAnchor
  | .scalar props text plain => do return .scalar (← ofScalar settled props text plain)
  | .sequence _ items =>
      match child with
      | none => throw .tooDeep
      | some child => do return .sequence (← items.mapM (child false))
  | .mapping _ entries =>
      match child with
      | none => throw .tooDeep
      | some child => do return .mapping (← ofEntries child settled [] entries)

def propertiesOf : Node → Properties
  | .reference _ => {}
  | .scalar props _ _ => props
  | .sequence props _ => props
  | .mapping props _ => props

def ofTaggedNode (child : Option Child) (settled : Bool) (node : Node) :
    Construct Value := do
  match settled, (propertiesOf node).tag.bind Tag.ownName? with
  | false, some tag => return .tagged (tagName tag) (← ofContent child true node)
  | _, _ => ofContent child settled node

def ofNodeWith (anchors : Anchors) (child : Option Child) (settled : Bool) (node : Node) :
    Construct Value := do
  match node with
  | .reference anchor => do ofTaggedNode child false (← follow anchors anchor)
  | other => ofTaggedNode child settled other

/-- The value of a node, in which collections may be nested so deep. -/
def ofNode (anchors : Anchors) : Nat → Child
  | 0 => ofNodeWith anchors none
  | depth + 1 => ofNodeWith anchors (some (ofNode anchors depth))

/-- The value of a source.  A source without a document is `null`. -/
def read (source : String) : Except Fault Value := do
  match ← Node.ofTokens? (← Token.ofText source) with
  | none => return .scalar .null
  | some (node, marks) =>
      let anchors : Anchors := ⟨Node.anchored node, marks * referencesPerMark⟩
      return (← (ofNode anchors maxNesting false node).run 0).1

/-! ### JSON trees -/

def keyText : Value → Except KeyFault String
  | .scalar (.text s) => .ok s
  | .scalar (.bool b) => .ok (if b then "true" else "false")
  | .scalar (.number n) => .ok n.text
  | .scalar (.infinity _) => .error .notFinite
  | .scalar .notANumber => .error .notFinite
  | _ => .error .notText

/-- The JSON value of a scalar; numbers that are not finite have none. -/
def scalarTree : Scalar → Json
  | .null => .null
  | .bool b => .bool b
  | .number n => .number n
  | .infinity _ => .null
  | .notANumber => .null
  | .text s => .string s

mutual

/-- The JSON tree of a value.  A tag becomes the only key of an object. -/
def tree : Value → Except KeyFault Json
  | .scalar s => .ok (scalarTree s)
  | .sequence items => do return .array (← itemTrees items)
  | .mapping entries => do return Json.ofEntries (← entryTrees entries)
  | .tagged tag value => do return .object [("!" ++ tag, ← tree value)]

def itemTrees : List Value → Except KeyFault (List Json)
  | [] => .ok []
  | item :: rest => do return (← tree item) :: (← itemTrees rest)

def entryTrees : List (Value × Value) → Except KeyFault (List (String × Json))
  | [] => .ok []
  | (key, value) :: rest => do
      let text ← keyText key
      return (text, ← tree value) :: (← entryTrees rest)

end

end Value

end OpenApiTypings.Yaml
