import OpenApiTypings.Yaml.Layout

/-!
# Nodes of a YAML document

The tokens of a source form at most one document, whose content is one node.  A node
is a scalar, a sequence, a mapping, or a reference to an anchored node.

Anchors are numbered.  The number of an anchor is the number of different names
before it, so a name that is given again may take the number of another anchor; a
reference stands for the last node of the document that has its number.
-/

namespace OpenApiTypings.Yaml

structure Properties where
  tag : Option Tag := none
  anchor : Option Nat := none
  deriving DecidableEq, Repr

inductive Node where
  | reference (anchor : Nat)
  /-- A scalar, and whether it is written without quotes and outside a block. -/
  | scalar (props : Properties) (text : String) (plain : Bool)
  | sequence (props : Properties) (items : List Node)
  | mapping (props : Properties) (entries : List (Node × Node))
  deriving Repr

namespace Node

instance : Inhabited Node := ⟨.scalar {} "" true⟩

/-! ### Reading nodes -/

/-- What the handles of tags stand for. -/
abbrev Handles := List (String × Tag)

def defaultHandles : Handles :=
  [("!", .ofText "!"), ("!!", .ofText "tag:yaml.org,2002:")]

/-- The tokens still to be read, the anchors by name, and the marks made: one for a
scalar or a reference, two for the start and the end of a collection. -/
structure Reader where
  tokens : List Token
  anchors : List (String × Nat) := []
  marks : Nat := 0

abbrev Read := StateT Reader (Except Fault)

namespace Read

def peek : Read Token := do
  return ((← get).tokens.head?).getD .sourceEnd

def skip : Read Unit :=
  modify fun s => { s with tokens := s.tokens.drop 1 }

def mark (n : Nat) : Read Unit :=
  modify fun s => { s with marks := s.marks + n }

def refuse : Read α := throw .badStructure

def define (name : String) : Read Nat := do
  let s ← get
  let number := s.anchors.length
  set { s with anchors := (name, number) :: s.anchors.filter fun entry => entry.1 ≠ name }
  return number

def numberOf (name : String) : Read Nat := do
  match List.lookup name (← get).anchors with
  | some number => return number
  | none => throw .unknownAnchor

def expand (handles : Handles) (handle : String) (suffix : Tag) : Read Tag :=
  if handle.isEmpty then return suffix
  else
    match List.lookup handle handles with
    | some expansion => return expansion.append suffix
    | none => throw .undefinedTagHandle

def anchor? : Read (Option String) := do
  match ← peek with
  | .anchor name => do skip; return some name
  | _ => return none

def tag? : Read (Option (String × Tag)) := do
  match ← peek with
  | .tag handle suffix => do skip; return some (handle, suffix)
  | _ => return none

/-- The name of the anchor and the tag that stand here, in either order. -/
def properties (handles : Handles) : Read (Option String × Option Tag) := do
  let early ← anchor?
  let tag ← tag?
  let name ← if early.isSome then pure early else anchor?
  let expanded ← tag.mapM fun (handle, suffix) => expand handles handle suffix
  return (name, expanded)

end Read

/-- A node that is not written. -/
def unwritten : Read Node := do
  Read.mark 1
  return .scalar {} "" true

/-- Where a node stands: among the entries of a block collection it may be a block
collection itself, and as the value of a block mapping also a sequence without
indentation of its own. -/
structure Place where
  block : Bool
  indentless : Bool

def Place.blockItem : Place := ⟨true, false⟩

def Place.blockValue : Place := ⟨true, true⟩

def Place.flow : Place := ⟨false, false⟩

/-- Past the comma before a further item, or past the end of a flow collection.
Says whether there is a further item. -/
def nextFlowItem (finish : Token) (first : Bool) : Read Bool := do
  if (← Read.peek) = finish then do Read.skip; return false
  else if first then return true
  else
    match ← Read.peek with
    | .flowEntry => do
        Read.skip
        if (← Read.peek) = finish then do Read.skip; return false
        else return true
    | _ => Read.refuse

mutual

/-- The node that stands here.  The first argument bounds the number of steps. -/
def read (handles : Handles) : Nat → Place → Read Node
  | 0, _ => Read.refuse
  | bound + 1, place => do
      match ← Read.peek with
      | .reference name => do
          let number ← Read.numberOf name
          Read.skip
          Read.mark 1
          return .reference number
      | _ =>
          let (name, tag) ← Read.properties handles
          let content ← Read.peek
          let define : Read Properties := do
            return ⟨tag, ← name.mapM Read.define⟩
          match content, place.block, place.indentless with
          | .blockEntry, _, true => do
              let props ← define
              Read.mark 2
              return .sequence props (← readIndentless handles bound)
          | .scalar text plain, _, _ => do
              let props ← define
              Read.skip
              Read.mark 1
              return .scalar props text plain
          | .flowSequenceStart, _, _ => do
              let props ← define
              Read.skip
              Read.mark 2
              return .sequence props (← readFlowItems handles bound true)
          | .flowMappingStart, _, _ => do
              let props ← define
              Read.skip
              Read.mark 2
              return .mapping props (← readFlowEntries handles bound true)
          | .blockSequenceStart, true, _ => do
              let props ← define
              Read.skip
              Read.mark 2
              return .sequence props (← readBlockItems handles bound)
          | .blockMappingStart, true, _ => do
              let props ← define
              Read.skip
              Read.mark 2
              return .mapping props (← readBlockEntries handles bound)
          | _, _, _ =>
              if name.isSome || tag.isSome then do
                let props ← define
                Read.mark 1
                return .scalar props "" true
              else Read.refuse

def readBlockItems (handles : Handles) : Nat → Read (List Node)
  | 0 => Read.refuse
  | bound + 1 => do
      match ← Read.peek with
      | .blockEntry => do
          Read.skip
          let item ←
            match ← Read.peek with
            | .blockEntry => unwritten
            | .blockEnd => unwritten
            | _ => read handles bound .blockItem
          return item :: (← readBlockItems handles bound)
      | .blockEnd => do Read.skip; return []
      | _ => Read.refuse

/-- The items of a block sequence that has no indentation, and so no end, of its
own. -/
def readIndentless (handles : Handles) : Nat → Read (List Node)
  | 0 => Read.refuse
  | bound + 1 => do
      match ← Read.peek with
      | .blockEntry => do
          Read.skip
          let item ←
            match ← Read.peek with
            | .blockEntry => unwritten
            | .key => unwritten
            | .value => unwritten
            | .blockEnd => unwritten
            | _ => read handles bound .blockItem
          return item :: (← readIndentless handles bound)
      | _ => return []

def readBlockEntries (handles : Handles) : Nat → Read (List (Node × Node))
  | 0 => Read.refuse
  | bound + 1 => do
      match ← Read.peek with
      | .key => do
          Read.skip
          let key ← readBlockPart handles bound
          let value ←
            match ← Read.peek with
            | .value => do Read.skip; readBlockPart handles bound
            | _ => unwritten
          return (key, value) :: (← readBlockEntries handles bound)
      | .blockEnd => do Read.skip; return []
      | _ => Read.refuse

def readBlockPart (handles : Handles) : Nat → Read Node
  | 0 => Read.refuse
  | bound + 1 => do
      match ← Read.peek with
      | .key => unwritten
      | .value => unwritten
      | .blockEnd => unwritten
      | _ => read handles bound .blockValue

/-- The items of a flow sequence up to its end.  An item with a key is a mapping of
one entry. -/
def readFlowItems (handles : Handles) : Nat → Bool → Read (List Node)
  | 0, _ => Read.refuse
  | bound + 1, first => do
      let more ← nextFlowItem .flowSequenceEnd first
      if !more then return []
      else
        let item ←
          match ← Read.peek with
          | .key => do
              Read.skip
              Read.mark 2
              let key ←
                match ← Read.peek with
                | .value => do Read.skip; unwritten
                | .flowEntry => do Read.skip; unwritten
                | .flowSequenceEnd => do Read.skip; unwritten
                | _ => read handles bound .flow
              let value ← readFlowValue handles bound .flowSequenceEnd
              pure (.mapping {} [(key, value)])
          | _ => read handles bound .flow
        return item :: (← readFlowItems handles bound false)

def readFlowEntries (handles : Handles) : Nat → Bool → Read (List (Node × Node))
  | 0, _ => Read.refuse
  | bound + 1, first => do
      let more ← nextFlowItem .flowMappingEnd first
      if !more then return []
      else
        let entry ←
          match ← Read.peek with
          | .key => do
              Read.skip
              let key ←
                match ← Read.peek with
                | .value => unwritten
                | .flowEntry => unwritten
                | .flowMappingEnd => unwritten
                | _ => read handles bound .flow
              pure (key, ← readFlowValue handles bound .flowMappingEnd)
          | _ => do
              let key ← read handles bound .flow
              pure (key, ← unwritten)
        return entry :: (← readFlowEntries handles bound false)

/-- The value behind a key of a flow collection, which a comma or the end of the
collection leaves unwritten. -/
def readFlowValue (handles : Handles) : Nat → Token → Read Node
  | 0, _ => Read.refuse
  | bound + 1, finish => do
      match ← Read.peek with
      | .value => do
          Read.skip
          let next ← Read.peek
          if next = .flowEntry || next = finish then unwritten
          else read handles bound .flow
      | _ => unwritten

end

/-! ### Documents -/

/-- The directives of a document: at most one version, which is 1.1 or 1.2, and
handles that differ. -/
def readDirectives : Nat → Bool → Handles → Read Handles
  | 0, _, _ => Read.refuse
  | bound + 1, versioned, handles => do
      match ← Read.peek with
      | .versionDirective major minor =>
          if versioned || major ≠ 1 || (minor ≠ 1 && minor ≠ 2) then Read.refuse
          else do
            Read.skip
            readDirectives bound true handles
      | .tagDirective handle expansion =>
          if (List.lookup handle handles).isSome then Read.refuse
          else do
            Read.skip
            readDirectives bound versioned ((handle, expansion) :: handles)
      | _ => return handles

def readContent (handles : Handles) (bound : Nat) : Read Node := do
  match ← Read.peek with
  | .versionDirective .. => unwritten
  | .tagDirective .. => unwritten
  | .documentStart => unwritten
  | .documentEnd => unwritten
  | .sourceEnd => unwritten
  | _ => read handles bound .blockItem

/-- The document that stands here; directives need a marker behind them. -/
def readDocument (bound : Nat) : Read Node := do
  let directed ←
    match ← Read.peek with
    | .versionDirective .. => pure true
    | .tagDirective .. => pure true
    | .documentStart => pure true
    | _ => pure false
  if !directed then read defaultHandles bound .blockItem
  else
    let handles ← readDirectives bound false []
    match ← Read.peek with
    | .documentStart => do
        Read.skip
        readContent (handles ++ defaultHandles) bound
    | _ => Read.refuse

/-- Past the end of the source; nothing but ends of documents may stand before it. -/
def readSourceEnd : Nat → Read Unit
  | 0 => Read.refuse
  | bound + 1 => do
      match ← Read.peek with
      | .documentEnd => do Read.skip; readSourceEnd bound
      | .sourceEnd => return ()
      | _ => throw .severalDocuments

/-- The content of a source: the node of its document, if it has one, and the number
of marks in it. -/
def ofTokens? (tokens : List Token) : Except Fault (Option (Node × Nat)) := do
  let bound := 3 * tokens.length + 3
  let document : Read (Option Node) := do
    match ← Read.peek with
    | .sourceEnd => return none
    | _ =>
        let node ← readDocument bound
        readSourceEnd bound
        return some node
  let (node?, s) ← document.run { tokens }
  return node?.map fun node => (node, s.marks)

/-! ### Anchored nodes -/

mutual

/-- The nodes with an anchor, in the order in which they start. -/
def anchored : Node → List (Nat × Node)
  | .reference _ => []
  | .scalar props text plain =>
      match props.anchor with
      | some number => [(number, .scalar props text plain)]
      | none => []
  | .sequence props items =>
      let inner := anchoredItems items
      match props.anchor with
      | some number => (number, .sequence props items) :: inner
      | none => inner
  | .mapping props entries =>
      let inner := anchoredEntries entries
      match props.anchor with
      | some number => (number, .mapping props entries) :: inner
      | none => inner

def anchoredItems : List Node → List (Nat × Node)
  | [] => []
  | item :: rest => anchored item ++ anchoredItems rest

def anchoredEntries : List (Node × Node) → List (Nat × Node)
  | [] => []
  | (key, value) :: rest => anchored key ++ anchored value ++ anchoredEntries rest

end

end Node

end OpenApiTypings.Yaml
