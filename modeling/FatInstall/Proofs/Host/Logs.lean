import FatInstall.Host.Edit

/-!
# Files that are open as logs

Lines of the journal that go to an open log file change the content of that file and nothing else.
`blank logs` forgets the content of the files with the given numbers; what the host says about
paths, and what it does to directories, is the same with and without it:

* `locate_blank`, `look_blank`: paths lead to the same places;
* `makeDirectory_blank`, `removeTree_blank`, `unlink_blank`: directories are made and entries are
  removed in the same way;
* `edit_blank`: and so are the changes that other programs make.

`SameButLogs logs` relates hosts that differ by what was written to the logs, and `sameButLogs_nil`
says that without a log they are equal.
-/

namespace FatInstall.Host

variable (logs : List Nat)

/-! ## Trees -/

/-- A node without what was written to it as a log. -/
def Node.blank : Node → Node
  | .file number content => .file number (if number ∈ logs then [] else content)
  | other => other

/-- A tree without what was written to logs. -/
def Tree.blank (t : Tree) : Tree :=
  { t with entries := t.entries.map fun e => (e.1, e.2.blank logs) }

/-- Looking up a place commutes with a change of the nodes. -/
theorem lookup_mapNodes (f : Node → Node) (p : Place) (es : List (Place × Node)) :
    (es.map fun e => (e.1, f e.2)).lookup p = (es.lookup p).map f := by
  induction es with
  | nil => rfl
  | cons e es ih =>
    obtain ⟨q, n⟩ := e
    cases h : p == q <;> simp [List.lookup_cons, h, ih]

@[simp] theorem Tree.get?_blank (t : Tree) (p : Place) :
    (t.blank logs).get? p = (t.get? p).map (Node.blank logs) := by
  simp only [Tree.get?, Tree.blank, lookup_mapNodes]
  split <;> rfl

theorem Tree.blank_put (t : Tree) (p : Place) (n : Node) :
    (t.put p n).blank logs = (t.blank logs).put p (n.blank logs) := by
  simp [Tree.put, Tree.blank, List.filter_map, Function.comp_def]

@[simp] theorem Tree.blank_put_directory (t : Tree) (p : Place) :
    (t.put p .directory).blank logs = (t.blank logs).put p .directory :=
  t.blank_put logs p .directory

@[simp] theorem Tree.blank_erase (t : Tree) (p : Place) :
    (t.erase p).blank logs = (t.blank logs).erase p := by
  simp [Tree.erase, Tree.blank, List.filter_map, Function.comp_def]

@[simp] theorem Tree.blank_eraseBelow (t : Tree) (p : Place) :
    (t.eraseBelow p).blank logs = (t.blank logs).eraseBelow p := by
  simp [Tree.eraseBelow, Tree.blank, List.filter_map, Function.comp_def]

@[simp] theorem Tree.childNames_blank (t : Tree) (p : Place) :
    (t.blank logs).childNames p = t.childNames p := by
  simp only [Tree.childNames, Tree.blank, List.filterMap_map]
  rfl

variable {logs}

theorem Node.blank_extend {number : Nat} (h : number ∈ logs) (more : List UInt8) (n : Node) :
    (Tree.Node.extend number more n).blank logs = n.blank logs := by
  cases n with
  | file k content =>
    by_cases hk : k = number
    · simp [Tree.Node.extend, Node.blank, hk, h]
    · simp [Tree.Node.extend, Node.blank, hk]
  | _ => rfl

/-- Adding to a log is not seen. -/
theorem Tree.blank_append {number : Nat} (h : number ∈ logs) (t : Tree) (more : List UInt8) :
    (t.append number more).blank logs = t.blank logs := by
  simp [Tree.append, Tree.blank, Node.blank_extend h]

variable (logs)

/-! ## Walks -/

/-- Is the node a file, a directory, a link or a device? All that a walk asks. -/
theorem walkNames_blank (t : Tree) (last : Bool)
    (follow : String → Place → List Text → Except Cause Place) (here : Place) (names : List Text) :
    walkNames (t.blank logs) last follow here names = walkNames t last follow here names := by
  induction names generalizing here with
  | nil => rfl
  | cons name rest ih =>
    simp only [walkNames, Tree.get?_blank, ih]
    rcases t.get? (here ++ [name]) with _ | _ | _ | _ | _ <;> simp [Node.blank]

theorem directoryAt_blank (t : Tree) (place : Place) :
    directoryAt (t.blank logs) place = directoryAt t place := by
  simp only [directoryAt, Tree.get?_blank]
  rcases t.get? place with _ | _ | _ | _ | _ <;> rfl

theorem walk_blank (t : Tree) (last : Bool) (links : Nat) (here : Place) (names : List Text) :
    walk (t.blank logs) last links here names = walk t last links here names := by
  induction links generalizing here names with
  | zero => exact walkNames_blank ..
  | succ links ih => simp only [walk, walkNames_blank, ih, directoryAt_blank]

end FatInstall.Host

namespace FatInstall.Host

variable (logs : List Nat) (h : Host) (p : Path)

/-! ## Looking at a host -/

/-- A host without what was written to logs. -/
def blank : Host := { h with tree := h.tree.blank logs }

@[simp] theorem blank_tree : (h.blank logs).tree = h.tree.blank logs := rfl

@[simp] theorem locate_blank (last : Bool) : (h.blank logs).locate last p = h.locate last p := by
  have hs : (h.blank logs).start p = h.start p := rfl
  have hf : (h.blank logs).foothold p = h.foothold p := rfl
  by_cases hn : h.tree.get? (h.foothold p) = none <;> simp [locate, hs, hf, hn, walk_blank]

@[simp] theorem directory_blank : (h.blank logs).directory p = h.directory p := by
  simp [directory, directoryAt_blank]

theorem node_blank (last : Bool) :
    (h.blank logs).node last p = (h.node last p).map (Node.blank logs) := by
  simp only [node, locate_blank, blank_tree, Tree.get?_blank]
  rcases h.locate last p with c | place
  · rfl
  · simp only [bind, Except.bind]
    cases h.tree.get? place <;> rfl

theorem look_blank :
    (h.blank logs).look p = (h.look p).map (Option.map (Node.blank logs)) := by
  simp only [look, node_blank]
  split
  · rfl
  · rcases h.node true p with c | n
    · cases c <;> rfl
    · rfl

@[simp] theorem doesExist_blank : (h.blank logs).doesExist p = h.doesExist p := by
  simp only [doesExist, look_blank]
  rcases h.look p with r | _ | n <;> rfl

@[simp] theorem isFile_blank : (h.blank logs).isFile p = h.isFile p := by
  simp only [isFile, look_blank]
  rcases h.look p with r | _ | _ | _ | _ | _ <;> rfl

@[simp] theorem isDirectory_blank : (h.blank logs).isDirectory p = h.isDirectory p := by
  simp only [isDirectory, look_blank]
  rcases h.look p with r | _ | _ | _ | _ | _ <;> rfl

/-! ## Changing a host -/

theorem makeOne_blank : (h.blank logs).makeOne p = (h.makeOne p).map (blank logs) := by
  simp only [makeOne, directory_blank, blank_tree, Tree.get?_blank]
  cases splitLast p with
  | none => rfl
  | some e =>
    obtain ⟨above, name⟩ := e
    by_cases hp : maxPath ≤ p.text.byteSize
    · simp only [hp, if_true]; rfl
    simp only [hp, if_false]
    cases h.directory above with
    | error c => rfl
    | ok place =>
      simp only [bind, Except.bind]
      by_cases hn : name = Path.parentName
      · simp only [hn, if_true]; rfl
      by_cases hs : maxName < name.byteSize
      · simp only [hn, hs, if_true, if_false]; rfl
      simp only [hn, hs, if_false]
      cases h.tree.get? (place ++ [name]) with
      | none => simp [Except.map, blank]
      | some n => rfl

theorem settle_blank (c : Cause) :
    (h.blank logs).settle p c = ((h.settle p c).1, (h.settle p c).2.blank logs) := by
  simp only [settle, isDirectory_blank]
  rcases h.isDirectory p with r | _ | _ <;> rfl

theorem makeUpTo_blank (levels : Nat) :
    makeUpTo levels p (h.blank logs) =
      ((makeUpTo levels p h).1, (makeUpTo levels p h).2.blank logs) := by
  induction levels generalizing p with
  | zero =>
    simp only [makeUpTo, makeOne_blank, settle_blank]
    rcases h.makeOne p with c | h'
    · cases c <;> rfl
    · rfl
  | succ levels ih =>
    simp only [makeUpTo, makeOne_blank, settle_blank, ih]
    rcases h.makeOne p with c | h'
    · cases c <;> try rfl
      rcases makeUpTo levels p.parent h with ⟨_ | _, h'⟩
      · rfl
      · simp only [makeOne_blank, settle_blank]
        rcases h'.makeOne p with c | h''
        · cases c <;> rfl
        · rfl
    · rfl

theorem makeDirectory_blank :
    (h.blank logs).makeDirectory p =
      ((h.makeDirectory p).1, (h.makeDirectory p).2.blank logs) := by
  simp only [makeDirectory]
  cases unspeakable? p with
  | some why => rfl
  | none => exact makeUpTo_blank ..

theorem removeEmpty_blank : (h.blank logs).removeEmpty p = (h.removeEmpty p).map (blank logs) := by
  simp only [removeEmpty, directory_blank, blank_tree, Tree.get?_blank, Tree.childNames_blank]
  cases splitLast p with
  | none => rfl
  | some e =>
    obtain ⟨above, name⟩ := e
    simp only [bind, Except.bind]
    cases h.directory above with
    | error c => rfl
    | ok place =>
      simp only
      by_cases hn : name = Path.parentName
      · simp only [hn, if_true]; rfl
      simp only [hn, if_false]
      rcases h.tree.get? (place ++ [name]) with _ | _ | _ | _ | _ <;> try rfl
      simp only [Option.map_some, Node.blank]
      by_cases hc : h.tree.childNames (place ++ [name]) = []
      · simp [hc, Except.map, blank]
      · simp only [hc, if_false]; rfl

section

variable {ε : Type} (r : TreeRemoval ε) (t : Tree)

theorem Tree.removeEntry_blank (place : Place) :
    (t.blank logs).removeEntry place = (t.removeEntry place).map (Tree.blank logs) := by
  simp only [Tree.removeEntry, Tree.childNames_blank]
  split <;> simp [Except.map]

theorem TreeRemoval.removeEach_blank (ps : List Place) :
    r.removeEach ps (t.blank logs) =
      ((r.removeEach ps t).1, (r.removeEach ps t).2.blank logs) := by
  induction ps generalizing t with
  | nil => rfl
  | cons place ps ih =>
    simp only [TreeRemoval.removeEach, Tree.removeEntry_blank]
    cases r.stops place with
    | some why => rfl
    | none =>
      cases t.removeEntry place with
      | error c => rfl
      | ok t' => exact ih t'

/-- Which entries are removed, and in which order, does not depend on what is in files. -/
theorem TreeRemoval.removeBelow_blank (place : Place) :
    r.removeBelow place (t.blank logs) =
      ((r.removeBelow place t).1, (r.removeBelow place t).2.blank logs) := by
  have hplaces : (t.blank logs).entries.map Prod.fst = t.entries.map Prod.fst := by
    simp [Tree.blank, Function.comp_def]
  rw [TreeRemoval.removeBelow, hplaces]
  exact r.removeEach_blank logs t _

theorem removeTreeBy_blank :
    (h.blank logs).removeTreeBy r p =
      ((h.removeTreeBy r p).1, (h.removeTreeBy r p).2.blank logs) := by
  simp only [removeTreeBy, node_blank, directory_blank]
  rcases h.node false p with c | n
  · rfl
  rcases h.directory p with c | place
  · cases n <;> rfl
  cases n with
  | link target => rfl
  | _ =>
    simp only [Except.map, Node.blank, blank_tree, r.removeBelow_blank]
    rcases r.removeBelow place h.tree with ⟨why | _, t⟩
    · rfl
    · have e : ({ h.blank logs with tree := t.blank logs } : Host) =
          Host.blank logs { h with tree := t } := rfl
      simp only [e, removeEmpty_blank]
      cases r.stops place with
      | some why => rfl
      | none => cases removeEmpty { h with tree := t } p <;> rfl

theorem unlinkBy_blank :
    (h.blank logs).unlinkBy r p = ((h.unlinkBy r p).1, (h.unlinkBy r p).2.blank logs) := by
  simp only [unlinkBy, locate_blank, blank_tree, Tree.get?_blank]
  rcases h.locate false p with c | place
  · rfl
  · dsimp only
    cases r.stops place <;> rcases h.tree.get? place with _ | _ | _ | _ | _ <;>
      simp [Node.blank, blank]

theorem discardBy_blank :
    (h.blank logs).discardBy r p = ((h.discardBy r p).1, (h.discardBy r p).2.blank logs) := by
  simp only [discardBy, isDirectory_blank]
  split
  · rfl
  · exact removeTreeBy_blank ..
  · exact unlinkBy_blank ..

end

theorem removeTree_blank :
    (h.blank logs).removeTree p = ((h.removeTree p).1, (h.removeTree p).2.blank logs) :=
  removeTreeBy_blank ..

theorem unlink_blank :
    (h.blank logs).unlink p = ((h.unlink p).1, (h.unlink p).2.blank logs) :=
  unlinkBy_blank ..

theorem discard_blank :
    (h.blank logs).discard p = ((h.discard p).1, (h.discard p).2.blank logs) :=
  discardBy_blank ..

/-! ## Changes by other programs -/

theorem Node.blank_blank (n : Node) : (n.blank logs).blank logs = n.blank logs := by
  cases n with
  | file number content => by_cases hn : number ∈ logs <;> simp [Node.blank, hn]
  | _ => rfl

theorem Tree.blank_blank (t : Tree) : (t.blank logs).blank logs = t.blank logs := by
  simp [Tree.blank, Node.blank_blank]

/-- A file may be one of the logs, so that its new content is not seen either. -/
theorem Tree.blank_overwrite (t : Tree) (place : Place) (content : List UInt8) :
    (overwrite (t.blank logs) place content).blank logs =
      (overwrite t place content).blank logs := by
  have hcreate : ((t.blank logs).create place content).blank logs =
      (t.create place content).blank logs := by
    have hput := (t.blank logs).blank_put logs place (.file t.next content)
    rw [t.blank_blank, ← t.blank_put] at hput
    exact congrArg (fun b : Tree => { b with next := t.next + 1 }) hput
  unfold overwrite
  rw [Tree.get?_blank]
  rcases t.get? place with _ | ⟨number, before⟩ | _ | _ | _
  · exact hcreate
  · simp only [Option.map_some, Node.blank]
    rw [Tree.blank_put, Tree.blank_put, Tree.blank_blank]
  all_goals exact hcreate

/-- A change by another program looks at no log. -/
theorem edit_blank (e : Edit) : ((h.blank logs).edit e).blank logs = (h.edit e).blank logs := by
  cases e with
  | write path content =>
    simp only [edit, makeDirectory_blank, locate_blank, blank_tree]
    cases (h.makeDirectory path.parent).2.locate true path with
    | error c => simp [blank, Tree.blank_blank]
    | ok place => simp [blank, Tree.blank_overwrite]
  | makeDirectory path =>
    simp only [edit, makeDirectory_blank]
    simp [blank, Tree.blank_blank]
  | link path target =>
    simp only [edit, makeDirectory_blank, locate_blank, blank_tree, Tree.get?_blank,
      Option.map_eq_none_iff]
    cases (h.makeDirectory path.parent).2.locate false path with
    | error c => simp [blank, Tree.blank_blank]
    | ok place =>
      dsimp only
      split
      · simp [blank, Tree.blank_put, Tree.blank_blank]
      · simp [blank, Tree.blank_blank]
  | remove path =>
    simp only [edit, locate_blank, blank_tree, Tree.get?_blank]
    cases h.locate false path with
    | error c => simp [blank, Tree.blank_blank]
    | ok place =>
      dsimp only
      rcases h.tree.get? place with _ | _ | _ | _ | _ <;>
        simp [blank, Node.blank, Tree.blank_blank]

/-! ## Hosts that are the same -/

/-- Are the hosts the same, apart from what was written to the logs? -/
def SameButLogs (logs : List Nat) (h h' : Host) : Prop := h'.blank logs = h.blank logs

/-- The same changes keep hosts the same. -/
theorem SameButLogs.edits {logs : List Nat} (edits : List Edit) {h h' : Host}
    (hh : SameButLogs logs h h') : SameButLogs logs (edits.foldl edit h) (edits.foldl edit h') := by
  induction edits generalizing h h' with
  | nil => exact hh
  | cons e edits ih =>
    refine ih ?_
    rw [SameButLogs, ← edit_blank, hh, edit_blank]

theorem Node.blank_nil (n : Node) : n.blank [] = n := by
  cases n <;> simp [Node.blank]

/-- Without a log the hosts are equal. -/
theorem sameButLogs_nil {h h' : Host} : SameButLogs [] h h' ↔ h' = h := by
  have hblank : ∀ g : Host, g.blank [] = g := fun g => by
    simp [blank, Tree.blank, Node.blank_nil]
  rw [SameButLogs, hblank, hblank]

end FatInstall.Host
