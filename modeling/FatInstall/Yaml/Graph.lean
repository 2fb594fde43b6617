import FatInstall.Yaml.Tag

/-!
# Node graphs

A document is a graph of nodes: an alias makes one node a part of several others, or of itself.
Nodes are named by their numbers.
-/

namespace FatInstall.Yaml

/-- What a node is made of. -/
inductive Content
  | scalar (text : Text)
  | sequence (items : List Nat)
  | mapping (entries : List (Nat × Nat))
  deriving DecidableEq, Repr

/-- A node. -/
structure Node where
  tag : Tag
  content : Content
  deriving DecidableEq, Repr

/-- The nodes of a document, by number. -/
structure Graph where
  nodes : Array Node
  deriving DecidableEq, Repr

namespace Graph

/-- The graph without nodes. -/
def empty : Graph := ⟨#[]⟩

/-- The number of nodes. -/
def size (g : Graph) : Nat := g.nodes.size

/-- The node with the given number. A number that is not given out yet names an empty text. -/
def node (g : Graph) (n : Nat) : Node := g.nodes.getD n ⟨.str, .scalar ""⟩

/-- The entries of a mapping. -/
def entries (g : Graph) (n : Nat) : List (Nat × Nat) :=
  match (g.node n).content with
  | .mapping es => es
  | _ => []

/-- The graph with a node more; its number is the size of the graph before. -/
def push (g : Graph) (x : Node) : Graph := ⟨g.nodes.push x⟩

/-- The graph with another node in place of one. -/
def set (g : Graph) (n : Nat) (x : Node) : Graph := ⟨g.nodes.setIfInBounds n x⟩

/-- The graph with other entries in a mapping. -/
def setEntries (g : Graph) (n : Nat) (es : List (Nat × Nat)) : Graph :=
  g.set n { g.node n with content := .mapping es }

/-- The graph with another tag for a node. -/
def setTag (g : Graph) (n : Nat) (t : Tag) : Graph := g.set n { g.node n with tag := t }

end Graph

end FatInstall.Yaml
