import FatInstall.Path

/-!
# The file tree of the host

A tree is a finite table from places to nodes. A place is the list of names that leads to it from
the root, without links or dots, so that two entries are one exactly when their places are equal,
and what lies below a place is what its list of names is a proper start of.

Files carry a number of their own, given when they are made: a file that is removed and made
again is another file, which an open log notices.
-/

namespace FatInstall.Host

/-- A place in the tree: names from the root. -/
abbrev Place := List Text

/-- What stands at a place. -/
inductive Node
  /-- A regular file, its number and its content. -/
  | file (number : Nat) (content : List UInt8)
  /-- A directory. -/
  | directory
  /-- A symbolic link. -/
  | link (target : String)
  /-- A device: it can be read and written, and keeps nothing. -/
  | device
  deriving DecidableEq, Repr

/-- A file tree. The root is always a directory and is not listed. -/
structure Tree where
  entries : List (Place × Node)
  /-- The number of the next file. -/
  next : Nat
  deriving DecidableEq, Repr

namespace Tree

/-- The tree with nothing but its root. -/
def empty : Tree := ⟨[], 0⟩

/-- The node at a place. -/
def get? (t : Tree) (p : Place) : Option Node :=
  if p = [] then some .directory else t.entries.lookup p

/-- The tree with the node at the place, instead of any that was there. -/
def put (t : Tree) (p : Place) (n : Node) : Tree :=
  { t with entries := (p, n) :: t.entries.filter fun e => e.1 != p }

/-- The tree without the entry at the place. -/
def erase (t : Tree) (p : Place) : Tree :=
  { t with entries := t.entries.filter fun e => e.1 != p }

/-- Is the second place properly below the first? -/
def isBelow (p q : Place) : Bool := p.isPrefixOf q && p != q

/-- The tree without the entries below the place. -/
def eraseBelow (t : Tree) (p : Place) : Tree :=
  { t with entries := t.entries.filter fun e => !isBelow p e.1 }

/-- The tree with a new file at the place. -/
def create (t : Tree) (p : Place) (content : List UInt8) : Tree :=
  { t.put p (.file t.next content) with next := t.next + 1 }

/-- A node after bytes were added to the file of the given number. -/
def Node.extend (number : Nat) (more : List UInt8) : Node → Node
  | .file n content => if n = number then .file n (content ++ more) else .file n content
  | other => other

/-- The tree after bytes were added to the file of the given number, wherever it stands now. -/
def append (t : Tree) (number : Nat) (more : List UInt8) : Tree :=
  { t with entries := t.entries.map fun e => (e.1, Node.extend number more e.2) }

/-- The names of the entries directly in the place. -/
def childNames (t : Tree) (p : Place) : List Text :=
  t.entries.filterMap fun e =>
    if e.1.dropLast = p ∧ e.1 ≠ [] then e.1.getLast? else none

/-- The entries below the place, each with its path from there, in the order of the paths as
bytes. -/
def listing (t : Tree) (p : Place) : List (Text × Node) :=
  let below := t.entries.filterMap fun e =>
    if isBelow p e.1 then some (Text.intercalate "/" (e.1.drop p.length), e.2) else none
  below.mergeSort fun a b => a.1.bytes?.getD [] ≤ b.1.bytes?.getD []

theorem get?_put_self (t : Tree) (p : Place) (n : Node) (h : p ≠ []) :
    (t.put p n).get? p = some n := by
  simp [get?, put, h]

theorem get?_put_of_ne (t : Tree) {p q : Place} (n : Node) (h : q ≠ p) :
    (t.put p n).get? q = t.get? q := by
  have hq : (q == p) = false := by simpa using h
  simp only [get?, put, List.lookup_cons, hq]
  congr 1
  induction t.entries with
  | nil => rfl
  | cons e es ih =>
    obtain ⟨k, v⟩ := e
    by_cases hk : k = p
    · subst hk
      simpa [List.lookup_cons, hq] using ih
    · simp only [ne_eq, bne_iff_ne, hk, not_false_eq_true, List.filter_cons_of_pos,
        List.lookup_cons, ih]

end Tree

end FatInstall.Host
