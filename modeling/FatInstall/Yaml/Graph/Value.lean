import FatInstall.Yaml.Graph.Merge
import FatInstall.Yaml.Scalar
import FatInstall.Value.SetOrder

/-!
# The value of a node graph

The value is found in two passes. The first visits every collection once, the outer ones before
the inner ones, merges what is to be merged, and finds the values of the scalars; the first fault
it meets is the fault of the document. The second puts the values together; where a collection is
inside itself, the inner occurrence is only marked. Each entry of the outermost mapping is put
together by itself.
-/

namespace FatInstall.Yaml

/-- What a node is, one level deep. -/
inductive Shape
  /-- The value is known. -/
  | leaf (v : Value)
  | list (items : List Nat)
  /-- A list of rows of two. -/
  | rows (entries : List (Nat × Nat))
  | set (items : List Nat)
  | map (entries : List (Nat × Nat))
  deriving Repr

/-- The state of the first pass. -/
structure Survey where
  graph : Graph
  /-- The scalars and the visited collections. -/
  shapes : List (Nat × Shape)
  /-- The collections that were met but not visited, the first to visit first. -/
  queue : List Nat
  deriving Repr

namespace Survey

/-- Is the kind one of a collection? -/
def isCollection : Tag → Bool
  | .seq | .map | .set | .orderedMap | .pairs => true
  | _ => false

/-- The text of a node that is read as a scalar: a mapping stands for its default value, which must
not lead back to the mapping. -/
def scalarText (g : Graph) : Nat → Nat → Except Fault Text
  | 0, _ => .error (.value .tooDeep)
  | fuel + 1, n =>
    match (g.node n).content with
    | .scalar text => .ok text
    | .sequence _ => .error .malformed
    | .mapping es =>
      match es.find? fun e => decide ((g.node e.1).tag = .default) with
      | some e => scalarText g fuel e.2
      | none => .error .malformed

/-- The value of a node that is read as a scalar. -/
def scalar (g : Graph) (n : Nat) : Except Fault Value := do
  if !(g.node n).tag.isScalar then .error .malformed
  let text ← scalarText g (g.size + 1) n
  match (g.node n).tag, (g.node n).content with
  | .timestamp, .mapping _ => .error (.value .mappingAsDate)
  | tag, _ => Scalar.value tag text

/-- Meets a node: finds the value of a scalar, and queues a collection, unless the node was met
before. -/
def meet (s : Survey) (n : Nat) : Except Fault Survey :=
  if (s.shapes.lookup n).isSome || s.queue.contains n then .ok s
  else if isCollection (s.graph.node n).tag then .ok { s with queue := s.queue ++ [n] }
  else do
    let v ← scalar s.graph n
    return { s with shapes := (n, .leaf v) :: s.shapes }

/-- Meets a node that is a key, which a collection cannot be. -/
def meetKey (s : Survey) (n : Nat) : Except Fault Survey :=
  if isCollection (s.graph.node n).tag then .error .malformed else s.meet n

/-- Meets the keys and the values of a mapping. -/
def meetEntries (s : Survey) (es : List (Nat × Nat)) : Except Fault Survey :=
  es.foldlM (fun s e => do (← s.meetKey e.1).meet e.2) s

/-- The only entry of a mapping. -/
def entryOf (g : Graph) (n : Nat) : Except Fault (Nat × Nat) :=
  match (g.node n).content with
  | .mapping [e] => .ok e
  | _ => .error .malformed

/-- Meets the entries of the mappings of one entry in a sequence, and lists them. -/
def meetRows : Survey → List Nat → Except Fault (Survey × List (Nat × Nat))
  | s, [] => .ok (s, [])
  | s, n :: r => do
    let e ← entryOf s.graph n
    let s ← (← s.meet e.1).meet e.2
    let (s, es) ← meetRows s r
    return (s, e :: es)

/-- The survey with the shape of a node. -/
def record (s : Survey) (n : Nat) (x : Shape) : Survey := { s with shapes := (n, x) :: s.shapes }

/-- Visits a collection. Its parts meet it as visited. -/
def visit (s : Survey) (n : Nat) : Except Fault Survey :=
  let node := s.graph.node n
  match node.tag, node.content with
  | .seq, .sequence items => do
    return (← items.foldlM meet (s.record n (.list []))).record n (.list items)
  | .map, .mapping _ => do
    let s := { s with graph := ← s.graph.flatten n }
    let es := s.graph.entries n
    return (← (s.record n (.map [])).meetEntries es).record n (.map es)
  | .set, .mapping _ => do
    let s := { s with graph := ← s.graph.flatten n }
    let es := s.graph.entries n
    return (← (s.record n (.set [])).meetEntries es).record n (.set (es.map Prod.fst))
  | .orderedMap, .sequence items | .pairs, .sequence items => do
    let (s, es) ← (s.record n (.rows [])).meetRows items
    return s.record n (.rows es)
  | _, _ => .error .malformed

/-- Visits the queued collections. Each node is queued at most once, which bounds their number. -/
def run : Nat → Survey → Except Fault Survey
  | 0, s => .ok s
  | fuel + 1, s =>
    match s.queue with
    | [] => .ok s
    | n :: r => do run fuel (← visit { s with queue := r } n)

/-- The survey of all that hangs on a node. -/
def ofRoot (g : Graph) (root : Nat) : Except Fault Survey := do
  run (g.size + 1) (← meet ⟨g, [], []⟩ root)

/-- The mark of a collection inside itself. -/
def again : Shape → Value
  | .map _ => .mapAgain
  | _ => .listAgain

/-- The value of a scalar that was visited. -/
def leaf? (s : Survey) (n : Nat) : Option Value :=
  match s.shapes.lookup n with
  | some (.leaf v) => some v
  | _ => none

/-- Does the node hold the word for what is not a number? -/
def isNotANumber (s : Survey) (n : Nat) : Bool :=
  (s.graph.node n).tag = .float &&
    match scalarText s.graph (s.graph.size + 1) n with
    | .ok text => Scalar.isNotANumber text
    | .error _ => false

/-- What makes a node the same key as another. -/
inductive Identity
  /-- It is what the key denotes. -/
  | denoted (key : Value.Key)
  /-- All words for what is not a number are one key, though none equals another as a number. -/
  | notANumber
  /-- The node is a key of its own. -/
  | own (node : Nat)
  deriving DecidableEq, Repr

/-- What makes a node the same key as another. -/
def identity (s : Survey) (n : Nat) : Identity :=
  if s.isNotANumber n then .notANumber
  else match (s.leaf? n).bind Value.key? with
    | some key => .denoted key
    | none => .own n

/-- The entries of a mapping with different keys, each with its last value. -/
def settle (s : Survey) (es : List (Nat × Nat)) : List (Nat × Nat) :=
  let named := es.map fun e => ((s.identity e.1, e.1), e.2)
  let settled := named.foldl
    (fun done e => Value.setEntryBy (fun a b => a.1 == b.1) e.1 e.2 done) []
  settled.map fun e => (e.1.2, e.2)

/-- The value of a node; `open_` are the collections around it. They are all different, so that
the number of nodes bounds the depth. -/
def value (s : Survey) : Nat → List Nat → Nat → Value
  | 0, _, _ => .null
  | fuel + 1, open_, n =>
    match s.shapes.lookup n with
    | none => .null
    | some (.leaf v) => v
    | some shape =>
      if open_.contains n then again shape
      else
        let part := value s fuel (n :: open_)
        match shape with
        | .leaf v => v
        | .list items => .list (items.map part)
        | .rows es => .list (es.map fun e => .row [part e.1, part e.2])
        | .set items => .set (Value.setOrder ((s.settle (items.map (·, n))).map (part ·.1)))
        | .map es => .map ((s.settle es).map fun e => (part e.1, part e.2))

/-- The value of a node with nothing around it. -/
def valueAlone (s : Survey) (n : Nat) : Value := s.value (s.graph.size + 1) [] n

/-- The value of the outermost node. A mapping there is a table whose entries are looked up one by
one, so that each is put together with nothing around it: one that leads back to the table holds
it once more. -/
def valueOfRoot (s : Survey) (root : Nat) : Value :=
  match s.shapes.lookup root with
  | some (.map es) =>
    .map ((s.settle es).map fun e => (s.valueAlone e.1, s.valueAlone e.2))
  | _ => s.valueAlone root

end Survey

/-- The value of the document whose outermost node is the given one. -/
def Graph.value (g : Graph) (root : Nat) : Except Fault Value := do
  return (← Survey.ofRoot g root).valueOfRoot root

end FatInstall.Yaml
