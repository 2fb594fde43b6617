import FatInstall.Host.Removal
import Mathlib.Data.List.TakeWhile

/-!
# Removing entry by entry

A directory tree is removed entry by entry, from the bottom up. No entry is met while something is
left below it, so that a removal ends only where the host refuses it; then the entries before are
gone, each with all that was below it, and everything else is as it was.

* `Tree.removeEntry_without`: the step, after some entries were removed.
* `TreeRemoval.removeEach_without`: the entries that are removed, and how the removal ends.
* `TreeRemoval.mem_gone_of_isBelow`: what is gone is gone with all below it.
* `removeTree_eq`: where nothing is refused, all that is below a directory goes.
-/

namespace FatInstall.Host

namespace Tree

/-- The tree without the entries at the given places. -/
def without (t : Tree) (ps : List Place) : Tree :=
  { t with entries := t.entries.filter fun e => e.1 ∉ ps }

variable {t : Tree} {ps done : List Place} {p q : Place}

theorem without_nil (t : Tree) : t.without [] = t := by
  have hall : t.entries.filter (fun e => e.1 ∉ ([] : List Place)) = t.entries :=
    List.filter_eq_self.2 fun _ _ => by simp
  rw [without, hall]

theorem erase_without (t : Tree) (done : List Place) (p : Place) :
    (t.without done).erase p = t.without (done ++ [p]) := by
  simp only [erase, without, List.filter_filter]
  congr 1
  refine List.filter_congr fun e _ => ?_
  by_cases he : e.1 = p <;> by_cases hd : e.1 ∈ done <;> simp [he, hd]

/-- An entry is removed after all that was below it. -/
theorem removeEntry_without (h : ∀ e ∈ t.entries, isBelow p e.1 = true → e.1 ∈ done) :
    (t.without done).removeEntry p = .ok (t.without (done ++ [p])) := by
  have hbare : (t.without done).childNames p = [] := by
    refine List.filterMap_eq_nil_iff.2 fun e he => ?_
    obtain ⟨hmem, hleft⟩ := List.mem_filter.1 he
    refine if_neg fun hchild => ?_
    obtain ⟨hparent, hne⟩ := hchild
    have hbelow : isBelow p e.1 = true := by
      refine isBelow_eq_true.2 ⟨hparent ▸ List.dropLast_prefix e.1, fun heq => ?_⟩
      have hlen := congrArg List.length (hparent.trans heq)
      rw [List.length_dropLast] at hlen
      have := List.length_pos_iff.2 hne
      omega
    simp [h e hmem hbelow] at hleft
  rw [removeEntry, if_pos hbare, erase_without]

/-- Removing all entries below a place. -/
theorem without_eq_eraseBelow
    (h : ∀ q, q ∈ ps ↔ q ∈ t.entries.map Prod.fst ∧ isBelow p q = true) :
    t.without ps = t.eraseBelow p := by
  unfold without eraseBelow
  congr 1
  refine List.filter_congr fun e he => ?_
  have hmem : e.1 ∈ ps ↔ isBelow p e.1 = true :=
    (h e.1).trans (and_iff_right (List.mem_map_of_mem he))
  simp [hmem]

end Tree

namespace TreeRemoval

variable {ε : Type} {r : TreeRemoval ε} {t : Tree} {ps done : List Place} {p q : Place}

/-- The entries that go before the first that may not be removed. -/
def gone (r : TreeRemoval ε) (ps : List Place) : List Place :=
  ps.takeWhile fun p => (r.stops p).isNone

/-- How the removal of entries ends. -/
def outcome (r : TreeRemoval ε) (ps : List Place) : Except ε Unit :=
  match ps.findSome? r.stops with
  | some why => .error why
  | none => .ok ()

theorem gone_subset (r : TreeRemoval ε) (ps : List Place) : r.gone ps ⊆ ps :=
  List.takeWhile_subset _

/-- A removal that ends early ends with what stopped it. -/
theorem exists_of_outcome_eq_error {why : ε} (h : r.outcome ps = .error why) :
    ∃ p ∈ ps, r.stops p = some why := by
  unfold outcome at h
  split at h
  · next hstop =>
    cases h
    exact List.exists_of_findSome?_eq_some hstop
  · cases h

/-- A removal that does not end early removes everything. -/
theorem gone_of_outcome_eq_ok (h : r.outcome ps = .ok ()) : r.gone ps = ps := by
  unfold outcome at h
  split at h
  · cases h
  · next hnone =>
    exact List.takeWhile_eq_self_iff.2 fun p hp => by
      simp [List.findSome?_eq_none_iff.1 hnone p hp]

/-- Entries that are listed from the bottom up, with all that is below them, are removed up to the
first that may not be. -/
theorem removeEach_without (hup : ps.Pairwise fun q r => ¬Tree.isBelow q r = true)
    (hall : ∀ p ∈ ps, ∀ e ∈ t.entries, Tree.isBelow p e.1 = true → e.1 ∈ done ++ ps) :
    r.removeEach ps (t.without done) = (r.outcome ps, t.without (done ++ r.gone ps)) := by
  induction ps generalizing done with
  | nil => simp [removeEach, outcome, gone]
  | cons p ps ih =>
    obtain ⟨hfirst, hrest⟩ := List.pairwise_cons.1 hup
    cases hstop : r.stops p with
    | some why => simp [removeEach, outcome, gone, hstop]
    | none =>
      have hbelow : ∀ e ∈ t.entries, Tree.isBelow p e.1 = true → e.1 ∈ done := by
        intro e he hb
        rcases List.mem_append.1 (hall p (.head _) e he hb) with hd | hd
        · exact hd
        -- what is below the entry does not come after it
        · rcases List.mem_cons.1 hd with heq | hd
          · exact ((Tree.isBelow_eq_true.1 hb).2 heq.symm).elim
          · exact (hfirst _ hd hb).elim
      have hall' : ∀ q ∈ ps, ∀ e ∈ t.entries, Tree.isBelow q e.1 = true →
          e.1 ∈ (done ++ [p]) ++ ps := by
        intro q hq e he hb
        rw [List.append_assoc]
        exact hall q (.tail _ hq) e he hb
      have hgo : r.removeEach (p :: ps) (t.without done) =
          r.removeEach ps (t.without (done ++ [p])) := by
        rw [removeEach, hstop, Tree.removeEntry_without hbelow]
      rw [hgo, ih hrest hall']
      simp [outcome, gone, hstop]

/-- All that is below a place is removed, up to the first entry that may not be. -/
theorem removeBelow_eq (r : TreeRemoval ε) (p : Place) (t : Tree) :
    r.removeBelow p t = (r.outcome (r.order p (t.entries.map Prod.fst)),
      t.without (r.gone (r.order p (t.entries.map Prod.fst)))) := by
  have hall : ∀ q ∈ r.order p (t.entries.map Prod.fst), ∀ e ∈ t.entries,
      Tree.isBelow q e.1 = true → e.1 ∈ [] ++ r.order p (t.entries.map Prod.fst) := by
    intro q hq e he hb
    have hpq := ((r.mem_order _ _ _).1 hq).2
    exact (r.mem_order _ _ _).2 ⟨List.mem_map_of_mem he, Tree.isBelow_trans hpq hb⟩
  have hrun := removeEach_without (r := r) (r.bottomUp p _) hall
  rwa [Tree.without_nil, List.nil_append] at hrun

/-- An entry that is gone is gone with all that was below it. -/
theorem mem_gone_of_isBelow (hup : ps.Pairwise fun q r => ¬Tree.isBelow q r = true)
    (hp : p ∈ r.gone ps) (hq : q ∈ ps) (hb : Tree.isBelow p q = true) : q ∈ r.gone ps := by
  have hsplit : r.gone ps ++ ps.dropWhile (fun p => (r.stops p).isNone) = ps :=
    List.takeWhile_append_dropWhile
  rw [← hsplit] at hup hq
  refine (List.mem_append.1 hq).resolve_right fun hlate => ?_
  exact (List.pairwise_append.1 hup).2.2 p hp q hlate hb

/-- Nothing keeps the entries that may all be removed. -/
theorem removeBelow_plain (report : Refusal → ε) (p : Place) (t : Tree) :
    (plain report).removeBelow p t = (.ok (), t.eraseBelow p) := by
  have houtcome : ∀ ps, (plain report).outcome ps = .ok () := fun ps => by
    have hnone : ps.findSome? (plain report).stops = none :=
      List.findSome?_eq_none_iff.2 fun _ _ => rfl
    rw [outcome, hnone]
  rw [removeBelow_eq, houtcome, gone_of_outcome_eq_ok (houtcome _),
    Tree.without_eq_eraseBelow fun q => (plain report).mem_order _ _ _]

end TreeRemoval

/-- Where every entry may be removed, a directory goes with all that is below it, if it can still
be found when it is empty. -/
theorem removeTree_eq (h : Host) (p : Path) :
    h.removeTree p = match h.node false p, h.directory p with
      | .error c, _ | _, .error c => (.error (.system c p.text), h)
      | .ok (.link _), .ok _ => (.error .treeIsLink, h)
      | .ok _, .ok place =>
        let h' := { h with tree := h.tree.eraseBelow place }
        match h'.removeEmpty p with
        | .ok h'' => (.ok (), h'')
        | .error c => (.error (.system c p.text), h') := by
  unfold removeTree removeTreeBy
  rcases h.node false p with c | n
  · rfl
  rcases h.directory p with c | place
  · cases n <;> rfl
  have hstop : (TreeRemoval.plain (id : Refusal → Refusal)).stops place = none := rfl
  cases n with
  | link target => rfl
  | _ =>
    simp only [TreeRemoval.removeBelow_plain, hstop]
    cases removeEmpty { h with tree := h.tree.eraseBelow place } p <;> rfl

theorem unlink_eq (h : Host) (p : Path) :
    h.unlink p = match h.locate false p with
      | .error c => (.error (.system c p.text), h)
      | .ok place =>
        match h.tree.get? place with
        | none => (.error (.system .missing p.text), h)
        | some .directory => (.error (.system .isDirectory p.text), h)
        | some _ => (.ok (), { h with tree := h.tree.erase place }) := by
  unfold unlink unlinkBy
  rcases h.locate false p with c | place
  · rfl
  · dsimp only
    rcases h.tree.get? place with _ | _ | _ | _ | _ <;> rfl

theorem discard_eq (h : Host) (p : Path) :
    h.discard p = match h.isDirectory p with
      | .error why => (.error why, h)
      | .ok true => h.removeTree p
      | .ok false => h.unlink p :=
  rfl

section

variable {ε : Type} (report : Refusal → ε) (h : Host) (p : Path)

theorem removeTreeBy_plain : h.removeTreeBy (.plain report) p =
    ((h.removeTree p).1.mapError report, (h.removeTree p).2) := by
  unfold removeTree removeTreeBy
  rcases h.node false p with c | n
  · rfl
  rcases h.directory p with c | place
  · cases n <;> rfl
  have hstop : ∀ {ε : Type} (f : Refusal → ε), (TreeRemoval.plain f).stops place = none :=
    fun _ => rfl
  cases n with
  | link target => rfl
  | _ =>
    simp only [TreeRemoval.removeBelow_plain, hstop]
    cases removeEmpty { h with tree := h.tree.eraseBelow place } p <;> rfl

theorem unlinkBy_plain :
    h.unlinkBy (.plain report) p = ((h.unlink p).1.mapError report, (h.unlink p).2) := by
  unfold unlink unlinkBy
  rcases h.locate false p with c | place
  · rfl
  · dsimp only
    rcases h.tree.get? place with _ | _ | _ | _ | _ <;> rfl

/-- Where every entry may be removed, only the host itself refuses. -/
@[simp] theorem discardBy_plain :
    h.discardBy (.plain report) p = ((h.discard p).1.mapError report, (h.discard p).2) := by
  unfold discard discardBy
  rcases h.isDirectory p with why | _ | _
  · rfl
  · exact unlinkBy_plain ..
  · exact removeTreeBy_plain ..

end

end FatInstall.Host
