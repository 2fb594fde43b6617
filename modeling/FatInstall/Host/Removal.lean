import FatInstall.Host.Walk

/-!
# Removing

A directory tree is removed entry by entry: an entry goes after all that is below it, and links are
removed, not followed. The host may refuse to remove an entry; then the removal ends there, and
what went before is gone.

* `TreeRemoval`: the order of the entries, and which of them the host refuses to remove.
* `TreeRemoval.removeEach`: the entries are removed one after the other.
* `removeTreeBy`, `unlinkBy`, `discardBy`: what a path names is removed on a host that may refuse.
* `removeTree`, `unlink`, `discard`: the same without permissions, where every entry may be removed.

How deep the tree may be is not limited here, as it is for documents (`Yaml.Reader`); such a limit
is one more reason to refuse.
-/

namespace FatInstall.Host

namespace Tree

/-- The tree without an entry that has nothing below it. -/
def removeEntry (t : Tree) (p : Place) : Except Cause Tree :=
  if t.childNames p = [] then .ok (t.erase p) else .error .notEmpty

/-- Puts a place in front of those above it. -/
def putBelow (p : Place) : List Place → List Place
  | [] => [p]
  | q :: qs => if isBelow q p then p :: q :: qs else q :: putBelow p qs

/-- The places of a list that are below the given one, each in front of those above it. -/
def placesBelow (p : Place) (ps : List Place) : List Place :=
  (ps.filter (isBelow p)).foldr putBelow []

theorem isBelow_eq_true {p q : Place} : isBelow p q = true ↔ p <+: q ∧ p ≠ q := by
  simp [isBelow]

theorem isBelow_trans {p q r : Place} (hpq : isBelow p q = true) (hqr : isBelow q r = true) :
    isBelow p r = true := by
  obtain ⟨hpq, hne⟩ := isBelow_eq_true.1 hpq
  obtain ⟨hqr, -⟩ := isBelow_eq_true.1 hqr
  refine isBelow_eq_true.2 ⟨hpq.trans hqr, ?_⟩
  rintro rfl
  exact hne (hpq.eq_of_length_le hqr.length_le)

theorem isBelow_asymm {p q : Place} (h : isBelow p q = true) : ¬isBelow q p = true := by
  intro h'
  obtain ⟨hpq, hne⟩ := isBelow_eq_true.1 h
  exact hne (hpq.eq_of_length_le (isBelow_eq_true.1 h').1.length_le)

theorem mem_putBelow {p q : Place} {ps : List Place} : q ∈ putBelow p ps ↔ q = p ∨ q ∈ ps := by
  induction ps with
  | nil => simp [putBelow]
  | cons r ps ih =>
    unfold putBelow
    split
    · exact List.mem_cons
    · rw [List.mem_cons, ih, List.mem_cons, or_left_comm]

theorem pairwise_putBelow {p : Place} {ps : List Place}
    (h : ps.Pairwise fun q r => ¬isBelow q r = true) :
    (putBelow p ps).Pairwise fun q r => ¬isBelow q r = true := by
  induction ps with
  | nil => simp [putBelow]
  | cons r ps ih =>
    obtain ⟨hfirst, hrest⟩ := List.pairwise_cons.1 h
    unfold putBelow
    split
    · next hr =>
      refine List.pairwise_cons.2 ⟨fun q hq hp => ?_, h⟩
      rcases List.mem_cons.1 hq with rfl | hq
      · exact isBelow_asymm hr hp
      · exact hfirst q hq (isBelow_trans hr hp)
    · next hr =>
      refine List.pairwise_cons.2 ⟨fun q hq => ?_, ih hrest⟩
      rcases mem_putBelow.1 hq with rfl | hq
      · exact hr
      · exact hfirst q hq

theorem mem_placesBelow {p q : Place} {ps : List Place} :
    q ∈ placesBelow p ps ↔ q ∈ ps ∧ isBelow p q = true := by
  rw [placesBelow, ← List.mem_filter]
  induction ps.filter (isBelow p) with
  | nil => simp
  | cons r rs ih => rw [List.foldr_cons, mem_putBelow, ih, List.mem_cons]

theorem pairwise_placesBelow (p : Place) (ps : List Place) :
    (placesBelow p ps).Pairwise fun q r => ¬isBelow q r = true := by
  rw [placesBelow]
  induction ps.filter (isBelow p) with
  | nil => exact .nil
  | cons r rs ih => exact pairwise_putBelow ih

end Tree

/-- How a directory tree is removed. -/
structure TreeRemoval (ε : Type) where
  /-- The order in which the entries below a place are removed, out of all that there are. -/
  order : Place → List Place → List Place
  mem_order : ∀ p ps q, q ∈ order p ps ↔ q ∈ ps ∧ Tree.isBelow p q = true
  /-- What is below an entry is removed before it. -/
  bottomUp : ∀ p ps, (order p ps).Pairwise fun q r => ¬Tree.isBelow q r = true
  /-- Why an entry may not be removed, if it may not. -/
  stops : Place → Option ε
  /-- What a refusal of the host is reported as. -/
  report : Refusal → ε

namespace TreeRemoval

variable {ε : Type} (r : TreeRemoval ε)

/-- The removal of entries that may all be removed. -/
def plain (report : Refusal → ε) : TreeRemoval ε where
  order := Tree.placesBelow
  mem_order _ _ _ := Tree.mem_placesBelow
  bottomUp := Tree.pairwise_placesBelow
  stops _ := none
  report := report

/-- Removes entries one after the other, up to the first that may not be removed. -/
def removeEach : List Place → Tree → Except ε Unit × Tree
  | [], t => (.ok (), t)
  | p :: ps, t =>
    match r.stops p with
    | some why => (.error why, t)
    | none =>
      match t.removeEntry p with
      | .error c => (.error (r.report (.system c (p.getLastD .empty))), t)
      | .ok t' => removeEach ps t'

/-- Removes all that is below a place. -/
def removeBelow (p : Place) (t : Tree) : Except ε Unit × Tree :=
  r.removeEach (r.order p (t.entries.map Prod.fst)) t

end TreeRemoval

/-- Splits off the last piece of a path. -/
def splitLast (p : Path) : Option (Path × Text) :=
  p.parts.getLast?.map fun piece => (p.parent, entryName piece)

/-- Removes one empty directory. -/
def removeEmpty (h : Host) (p : Path) : Except Cause Host :=
  match splitLast p with
  | none => .error (if p.isAbsolute then .busy else .invalid)
  | some (above, name) => do
    let place ← h.directory above
    if name = Path.parentName then .error .notEmpty
    else match h.tree.get? (place ++ [name]) with
      | none => .error .missing
      | some .directory =>
        if h.tree.childNames (place ++ [name]) = [] then
          .ok { h with tree := h.tree.erase (place ++ [name]) }
        else .error .notEmpty
      | some _ => .error .notDirectory

variable {ε : Type} (r : TreeRemoval ε)

/-- Removes a directory and all that is below it. A link to a directory is refused. -/
def removeTreeBy (h : Host) (p : Path) : Except ε Unit × Host :=
  match h.node false p, h.directory p with
  | .error c, _ | _, .error c => (.error (r.report (.system c p.text)), h)
  | .ok (.link _), .ok _ => (.error (r.report .treeIsLink), h)
  | .ok _, .ok place =>
    match r.removeBelow place h.tree with
    | (.error why, tree) => (.error why, { h with tree })
    | (.ok (), tree) =>
      let h' := { h with tree }
      match r.stops place, h'.removeEmpty p with
      | some why, _ => (.error why, h')
      | none, .error c => (.error (r.report (.system c p.text)), h')
      | none, .ok h'' => (.ok (), h'')

/-- Removes a file or a link. -/
def unlinkBy (h : Host) (p : Path) : Except ε Unit × Host :=
  match h.locate false p with
  | .error c => (.error (r.report (.system c p.text)), h)
  | .ok place =>
    match h.tree.get? place, r.stops place with
    | none, _ => (.error (r.report (.system .missing p.text)), h)
    | some .directory, _ => (.error (r.report (.system .isDirectory p.text)), h)
    | some _, some why => (.error why, h)
    | some _, none => (.ok (), { h with tree := h.tree.erase place })

/-- Removes what a path leads to: a directory with all that is below it, or a file. -/
def discardBy (h : Host) (p : Path) : Except ε Unit × Host :=
  match h.isDirectory p with
  | .error why => (.error (r.report why), h)
  | .ok true => h.removeTreeBy r p
  | .ok false => h.unlinkBy r p

/-- Removes a directory and all that is below it, where every entry may be removed. -/
def removeTree (h : Host) (p : Path) : Except Refusal Unit × Host := h.removeTreeBy (.plain id) p

/-- Removes a file or a link that may be removed. -/
def unlink (h : Host) (p : Path) : Except Refusal Unit × Host := h.unlinkBy (.plain id) p

/-- Removes what a path leads to, where every entry may be removed. -/
def discard (h : Host) (p : Path) : Except Refusal Unit × Host := h.discardBy (.plain id) p

end FatInstall.Host
