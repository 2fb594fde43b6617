import FatInstall.Yaml.Graph
import FatInstall.Yaml.Token.Lexer

/-!
# Reading a node graph from tokens

The grammar of documents, by recursive descent. A node is given its number, and its anchor its
meaning, before its parts are read, so that an alias inside a collection can stand for the
collection itself. An alias stands only for an anchor that came before it, and an anchor is not
given twice. A fault that ends the tokens is met where the first token that is not final would be
looked at.

How many collections may be inside one another is given to the reader. An interpreter that reads
documents by calling itself has such a limit, which depends on how deep it is called itself and
counts every call. Its calls for other purposes are not counted here: to follow aliases into values,
chains of merges and chains of defaults.
-/

namespace FatInstall.Yaml

/-- The state of the reader. -/
structure Reader where
  tokens : List Token
  /-- The fault that is met after so many more tokens. -/
  fault : Option (Nat × Fault)
  graph : Graph
  /-- The nodes with an anchor. -/
  anchors : List (String × Nat)
  /-- What the handles of tags stand for. -/
  handles : List (String × String)
  /-- So many more collections can be inside one another. -/
  room : Nat
  deriving DecidableEq, Repr

/-- A step of reading, which can end in a fault. -/
abbrev Reading (α : Type) := StateT Reader (Except Fault) α

namespace Reading

/-- The fault of a text that is not well-formed. -/
def refuse {α : Type} : Reading α := throw .malformed

/-- The next token. -/
def peek : Reading Token := do
  let r ← get
  match r.fault, r.tokens with
  | some (0, f), _ => throw f
  | _, t :: _ => return t
  | _, [] => refuse

/-- Drops the next token. -/
def drop : Reading Unit := modify fun r =>
  { r with
    tokens := r.tokens.tail
    fault := r.fault.map fun (count, f) => (count - 1, f) }

/-- Drops the next token if it is the given one, and says whether it was. -/
def dropIf (t : Token) : Reading Bool := do
  if (← peek) = t then
    drop
    return true
  else return false

/-- Drops the next token, which must be the given one. -/
def expect (t : Token) : Reading Unit := do
  if !(← dropIf t) then refuse

/-- Gives a node a number. -/
def push (x : Node) : Reading Nat := do
  let r ← get
  set { r with graph := r.graph.push x }
  return r.graph.size

/-- Says what a numbered node is made of. -/
def fill (n : Nat) (c : Content) : Reading Unit :=
  modify fun r => { r with graph := r.graph.set n { r.graph.node n with content := c } }

/-- A node of which nothing is written. -/
def absent : Reading Nat := push ⟨.null, .scalar ""⟩

/-- Gives a node its anchor, which must be a new one. -/
def bindAnchor (anchor : Option String) (n : Nat) : Reading Unit := do
  if let some a := anchor then
    if ((← get).anchors.lookup a).isSome then refuse
    modify fun r => { r with anchors := (a, n) :: r.anchors }

/-- The name that a tag stands for. -/
def tagName (handle : Option String) (rest : String) : Reading String := do
  match handle with
  | none => return rest
  | some h =>
    match (← get).handles.lookup h with
    | some start => return start ++ rest
    | none => refuse

/-- An anchor, if it is next. -/
def anchor? : Reading (Option String) := do
  match ← peek with
  | .anchor a =>
    drop
    return some a
  | _ => return none

/-- A tag, if it is next. -/
def tag? : Reading (Option (Option String × String)) := do
  match ← peek with
  | .tag handle rest =>
    drop
    return some (handle, rest)
  | _ => return none

/-- The anchor and the name of the tag of a node, in either order. -/
def properties : Reading (Option String × Option String) := do
  let first ← anchor?
  let tag ← tag?
  let anchor ← if first.isNone && tag.isSome then anchor? else pure first
  let name ← match tag with
    | none => pure none
    | some (handle, rest) => some <$> tagName handle rest
  return (anchor, name)

/-- The kind of a scalar. -/
def scalarTag (name : Option String) (text : Text) (isPlain : Bool) : Tag :=
  match name with
  | none => if isPlain then Tag.ofPlain text else .str
  | some "!" => Tag.ofPlain text
  | some n => Tag.ofName n

/-- The kind of a collection. -/
def collectionTag (name : Option String) (usual : Tag) : Tag :=
  match name with
  | none | some "!" => usual
  | some n => Tag.ofName n

/-- Reads a node, or takes it for absent if a token of the class is next. -/
def nodeUnless (stops : List Token) (read : Reading Nat) : Reading Nat := do
  if stops.contains (← peek) then absent else read

/-- Goes into a collection. -/
def enter : Reading Unit := do
  let r ← get
  if r.room = 0 then throw (.value .tooDeep)
  set { r with room := r.room - 1 }

/-- Comes out of a collection. -/
def leave : Reading Unit := modify fun r => { r with room := r.room + 1 }

/-- Reads a collection whose parts are read by `parts`. -/
def collection (anchor : Option String) (tag : Tag) (parts : Reading Content) : Reading Nat := do
  let n ← push ⟨tag, .sequence []⟩
  bindAnchor anchor n
  enter
  fill n (← parts)
  leave
  return n

/-- A node of which only the anchor or the tag is written. -/
def bare (anchor name : Option String) : Reading Nat := do
  if anchor.isNone && name.isNone then refuse
  let n ← push ⟨scalarTag name "" true, .scalar ""⟩
  bindAnchor anchor n
  return n

mutual

/-- A node. Block collections are read only in block form; a sequence without indentation of its
own only as a part of a mapping. -/
def node : Nat → Bool → Bool → Reading Nat
  | 0, _, _ => refuse
  | fuel + 1, block, indentless => do
    if let .alias name ← peek then
      drop
      match (← get).anchors.lookup name with
      | some n => return n
      | none => refuse
    else
      let (anchor, name) ← properties
      let sequence := collection anchor (collectionTag name .seq)
      let mapping := collection anchor (collectionTag name .map)
      match ← peek with
      | .scalar text isPlain =>
        drop
        let n ← push ⟨scalarTag name text isPlain, .scalar text⟩
        bindAnchor anchor n
        return n
      | .flowSequenceStart =>
        drop
        sequence (Content.sequence <$> flowItems fuel true)
      | .flowMappingStart =>
        drop
        mapping (Content.mapping <$> flowEntries fuel true)
      | .blockEntry =>
        if indentless then sequence (Content.sequence <$> indentlessItems fuel)
        else bare anchor name
      | .blockSequenceStart =>
        if block then
          drop
          sequence (Content.sequence <$> blockItems fuel)
        else bare anchor name
      | .blockMappingStart =>
        if block then
          drop
          mapping (Content.mapping <$> blockEntries fuel)
        else bare anchor name
      | _ => bare anchor name

/-- The items of a block sequence, and its end. -/
def blockItems : Nat → Reading (List Nat)
  | 0 => refuse
  | fuel + 1 => do
    if ← dropIf .blockEntry then
      let item ← nodeUnless [.blockEntry, .blockEnd] (node fuel true false)
      return item :: (← blockItems fuel)
    else
      expect .blockEnd
      return []

/-- The items of a sequence that has no end of its own. -/
def indentlessItems : Nat → Reading (List Nat)
  | 0 => refuse
  | fuel + 1 => do
    if ← dropIf .blockEntry then
      let item ← nodeUnless [.blockEntry, .key, .value, .blockEnd] (node fuel true false)
      return item :: (← indentlessItems fuel)
    else return []

/-- The entries of a block mapping, and its end. -/
def blockEntries : Nat → Reading (List (Nat × Nat))
  | 0 => refuse
  | fuel + 1 => do
    if ← dropIf .key then
      let stops := [Token.key, .value, .blockEnd]
      let key ← nodeUnless stops (node fuel true true)
      let value ←
        if ← dropIf .value then nodeUnless stops (node fuel true true)
        else absent
      return (key, value) :: (← blockEntries fuel)
    else
      expect .blockEnd
      return []

/-- The items of a sequence in brackets, and its end. An item with a colon is a mapping of one
entry. -/
def flowItems : Nat → Bool → Reading (List Nat)
  | 0, _ => refuse
  | fuel + 1, first => do
    if ← dropIf .flowSequenceEnd then return []
    if !first then expect .flowEntry
    match ← peek with
    | .flowSequenceEnd =>
      drop
      return []
    | .key =>
      drop
      let item ← collection none .map do
        let key ← nodeUnless [.value, .flowEntry, .flowSequenceEnd] (node fuel false false)
        let value ←
          if ← dropIf .value then
            nodeUnless [.flowEntry, .flowSequenceEnd] (node fuel false false)
          else absent
        return .mapping [(key, value)]
      return item :: (← flowItems fuel false)
    | _ =>
      let item ← node fuel false false
      return item :: (← flowItems fuel false)

/-- The entries of a mapping in braces, and its end. -/
def flowEntries : Nat → Bool → Reading (List (Nat × Nat))
  | 0, _ => refuse
  | fuel + 1, first => do
    if ← dropIf .flowMappingEnd then return []
    if !first then expect .flowEntry
    match ← peek with
    | .flowMappingEnd =>
      drop
      return []
    | .key =>
      drop
      let key ← nodeUnless [.value, .flowEntry, .flowMappingEnd] (node fuel false false)
      let value ←
        if ← dropIf .value then
          nodeUnless [.flowEntry, .flowMappingEnd] (node fuel false false)
        else absent
      return (key, value) :: (← flowEntries fuel false)
    | _ =>
      let key ← node fuel false false
      let value ← absent
      return (key, value) :: (← flowEntries fuel false)

end

/-- The handles that need no directive. -/
def usualHandles : List (String × String) := [("!", "!"), ("!!", Tag.standard)]

/-- The directives before a document. A second version or a second meaning of a handle is refused;
so is a version other than the first. -/
def directives : Nat → Bool → Reading Unit
  | 0, _ => refuse
  | fuel + 1, hasVersion => do
    match ← peek with
    | .directive d =>
      drop
      match d with
      | .version major =>
        if hasVersion || major ≠ 1 then refuse
        directives fuel true
      | .handle h start =>
        if ((← get).handles.lookup h).isSome then refuse
        modify fun r => { r with handles := (h, start) :: r.handles }
        directives fuel hasVersion
      | .other => directives fuel hasVersion
    | _ => modify fun r => { r with handles := r.handles ++ usualHandles }

/-- Does the token end what can be the content of a document? -/
def endsContent : Token → Bool
  | .directive _ | .documentStart | .documentEnd | .streamEnd => true
  | _ => false

/-- Drops marks that end a document. -/
def dropEnds : Nat → Reading Unit
  | 0 => return ()
  | fuel + 1 => do
    if ← dropIf .documentEnd then dropEnds fuel

/-- The end of the text. The start of a second document is read before it is refused. -/
def onlyDocument (fuel : Nat) : Reading Unit := do
  if !(← dropIf .streamEnd) then
    modify fun r => { r with handles := [] }
    directives fuel false
    expect .documentStart
    refuse

/-- The document, which must be the only one: the number of its node, if it has one. -/
def document : Reading (Option Nat) := do
  let fuel := 4 * (← get).tokens.length + 8
  match ← peek with
  | .streamEnd => return none
  | t =>
    let isExplicit := match t with
      | .directive _ | .documentStart => true
      | _ => false
    directives fuel false
    let n ←
      if isExplicit then do
        expect .documentStart
        if endsContent (← peek) then absent else node fuel true false
      else node fuel true false
    dropEnds fuel
    onlyDocument fuel
    return some n

end Reading

/-- The graph of a text and the number of the node of its document; none if it is empty. So many
collections can be inside one another. -/
def Graph.ofText (room : Nat) (cs : List Char) : Except Fault (Graph × Option Nat) :=
  let (ts, fault) := tokens cs
  match Reading.document.run ⟨ts, fault, .empty, [], [], room⟩ with
  | .ok (root, r) => .ok (r.graph, root)
  | .error f => .error f

end FatInstall.Yaml
