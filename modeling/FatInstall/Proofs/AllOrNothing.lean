import FatInstall.Proofs.Footprint

/-!
# What the removal of the scratch directory leaves

A removal of the scratch directory takes the entry that its path names, with what is below it, or
takes nothing, with two ways to end in between. A directory tree goes entry by entry, so that an
entry that may not be removed ends the removal when others are gone already. And a directory is
emptied before it goes; a path that leads through what was below it cannot be followed any more
then.

* `walk_lost`: a path whose entry is gone leads nowhere.
* `Host.PartlyEmptied`: what a removal leaves that was broken off.
* `Host.Discarding`: the ways in which what a path leads to can be removed, or not.
* `removeScratchDir_allOrNothing`: what a removal leaves, for each of its results.
-/

namespace FatInstall

namespace Host

/-! ## Paths that lost their entry -/

/-- Does a walk with this result lead to nothing? -/
def LeadsNowhere (t : Tree) (x : Except Cause Place) : Prop :=
  x = .error .missing ∨ ∃ q, x = .ok q ∧ t.get? q = none

section

variable {t t' : Tree} {f f' : Follow (Except Cause Place)} {here place : Place}
  {names : List Text} {links : Nat} {last : Bool}

theorem walkNames_lost (ht : ∀ q, t'.get? q = none ∨ t'.get? q = t.get? q)
    (hf : ∀ target here rest, rest ≠ [] → f target here rest = .ok place →
      LeadsNowhere t' (f' target here rest))
    (hw : walkNames t false f here names = .ok place) (hg : t'.get? place = none) :
    LeadsNowhere t' (walkNames t' last f' here names) := by
  induction names generalizing here with
  | nil =>
    cases hw
    exact .inr ⟨_, rfl, hg⟩
  | cons name rest ih =>
    by_cases hn : name = Path.parentName
    · simp only [walkNames, hn, if_true] at hw ⊢
      exact ih hw
    by_cases hs : maxName < name.byteSize
    · simp only [walkNames, hn, hs, if_true, if_false] at hw
      cases hw
    simp only [walkNames, hn, hs, if_false] at hw ⊢
    cases hg' : t'.get? (here ++ [name]) with
    | none =>
      dsimp only
      split
      · exact .inr ⟨_, rfl, hg'⟩
      · exact .inl rfl
    | some n =>
      rw [← (ht _).resolve_left (by simp [hg']), hg'] at hw
      -- what is still there is not the entry, so the walk goes on
      have hgo : rest = [] → here ++ [name] ≠ place := by
        rintro - rfl
        rw [hg] at hg'
        cases hg'
      cases n with
      | directory => exact ih hw
      | link target =>
        have hr : rest ≠ [] := by
          rintro rfl
          simp only [true_and, if_true] at hw
          exact hgo rfl (Except.ok.inj hw)
        simp only [hr, false_and, if_false] at hw ⊢
        exact hf target here rest hr hw
      | _ =>
        dsimp only at hw
        split at hw
        · next hr => exact (hgo hr (Except.ok.inj hw)).elim
        · cases hw

/-- Where something is missing, a walk leads nowhere if what it led to is missing. -/
theorem walk_lost (ht : ∀ q, t'.get? q = none ∨ t'.get? q = t.get? q)
    (hw : walk t false links here names = .ok place) (hg : t'.get? place = none) :
    LeadsNowhere t' (walk t' last links here names) := by
  induction links generalizing here names with
  | zero => exact walkNames_lost ht (fun _ _ _ _ hf => by cases hf) hw hg
  | succ links ih =>
    refine walkNames_lost ht (fun target here rest hr hf => ?_) hw hg
    simp only [hr, false_and, if_false, bind_pure] at hf ⊢
    exact ih hf

end

variable {h h' : Host} {d : Path} {place q : Place}

/-- A path whose entry is gone leads to nothing. -/
theorem Shrinks.doesExist_of_lost (a : Shrinks h h') (hl : h.locate false d = .ok place)
    (hg : h'.tree.get? place = none) : h'.doesExist d = .ok false := by
  obtain ⟨hm, -, hw⟩ := walk_of_locate hl
  have hlost : LeadsNowhere h'.tree (h'.locate true d) := by
    rw [locate, if_neg hm, start_congr a.here]
    split
    · exact .inl rfl
    · exact walk_lost a.get? hw hg
  have hnode : h'.node true d = .error .missing := by
    rcases hlost with he | ⟨q, he, hq⟩
    · simp [node, he, bind, Except.bind]
    · simp [node, he, hq, bind, Except.bind]
  unfold doesExist look
  rw [hnode]
  split <;> rfl

/-! ## Removals that are broken off -/

/-- Is the second host the first one without some of the entries below a place, each with all that
was below it? -/
structure PartlyEmptied (place : Place) (h h' : Host) : Prop where
  shrinks : Shrinks h h'
  outside : ∀ q, ¬Tree.isBelow place q = true → h'.tree.get? q = h.tree.get? q
  whole : ∀ q q', h.tree.get? q ≠ none → h'.tree.get? q = none → q <+: q' →
    h'.tree.get? q' = none

theorem Tree.ne_nil_of_isBelow (hb : Tree.isBelow place q = true) : q ≠ [] := by
  obtain ⟨hp, hne⟩ := Tree.isBelow_eq_true.1 hb
  rintro rfl
  exact hne (List.prefix_nil.1 hp)

theorem Tree.mem_places_iff {t : Tree} (hq : q ≠ []) :
    q ∈ t.entries.map Prod.fst ↔ t.get? q ≠ none := by
  rw [Tree.get?, if_neg hq, ne_eq, List.lookup_eq_none_iff]
  refine ⟨fun hm hall => ?_, fun hsome => Classical.byContradiction fun hm => hsome fun e he => ?_⟩
  · obtain ⟨e, he, rfl⟩ := List.mem_map.1 hm
    simpa using hall e he
  · simpa using fun heq : q = e.1 => hm (heq ▸ List.mem_map_of_mem he)

/-- Some entries below a place, up to the first that may not be removed, are missing. -/
theorem partlyEmptied_without {ε : Type} (r : TreeRemoval ε) (h : Host) (place : Place) :
    PartlyEmptied place h { h with
      tree := h.tree.without (r.gone (r.order place (h.tree.entries.map Prod.fst))) } := by
  have hbelow : ∀ q ∈ r.gone (r.order place (h.tree.entries.map Prod.fst)),
      Tree.isBelow place q = true := fun q hq =>
    ((r.mem_order _ _ _).1 (r.gone_subset _ hq)).2
  have hup := r.bottomUp place (h.tree.entries.map Prod.fst)
  generalize hps : r.order place (h.tree.entries.map Prod.fst) = ps at hbelow hup ⊢
  have hget : ∀ q, (h.tree.without (r.gone ps)).get? q =
      if q ∈ r.gone ps then none else h.tree.get? q := by
    intro q
    by_cases hq : q = []
    · have hno : q ∉ r.gone ps := fun hm => Tree.ne_nil_of_isBelow (hbelow q hm) hq
      rw [if_neg hno, hq]
      rfl
    · simp only [Tree.get?, Tree.without, hq, if_false, lookup_filter_places (· ∉ r.gone ps)]
      by_cases hm : q ∈ r.gone ps <;> simp [hm]
  refine ⟨⟨rfl, fun q => ?_⟩, fun q hq => ?_, fun q q' hq hgone hle => ?_⟩
  · rw [hget]
    split
    · exact .inl rfl
    · exact .inr rfl
  · exact (hget q).trans (if_neg fun hm => hq (hbelow q hm))
  · have hm : q ∈ r.gone ps := by
      refine Classical.byContradiction fun hno => hq ?_
      rwa [hget, if_neg hno] at hgone
    rw [hget]
    split
    · rfl
    next hno =>
    -- what is left below a removed entry was not there
    refine Classical.byContradiction fun hpresent => hno ?_
    by_cases he : q = q'
    · rwa [← he]
    have hb : Tree.isBelow q q' = true := Tree.isBelow_eq_true.2 ⟨hle, he⟩
    refine r.mem_gone_of_isBelow hup hm ?_ hb
    rw [← hps]
    exact (r.mem_order _ _ _).2
      ⟨(Tree.mem_places_iff (Tree.ne_nil_of_isBelow hb)).2 hpresent,
        Tree.isBelow_trans (hbelow q hm) hb⟩

/-! ## Removing what a path leads to -/

/-- The ways in which what a path leads to can be removed or not: its entry goes with all below it,
everything stays, an entry may not be removed when others are gone, or a directory is emptied and
cannot be found any more. -/
inductive Discarding {ε : Type} (r : TreeRemoval ε) (h : Host) (d : Path) :
    Except ε Unit → Host → Prop
  | done {place : Place} {h' : Host} : h.locate false d = .ok place → Shrinks h h' →
      h'.tree.get? place = none → (∀ q, ¬place <+: q → h'.tree.get? q = h.tree.get? q) →
      Discarding r h d (.ok ()) h'
  | refused {why : ε} : Discarding r h d (.error why) h
  | stopped {place q : Place} {why : ε} {h' : Host} : h.locate false d = .ok place →
      h.tree.get? place = some .directory → place <+: q → h.tree.get? q ≠ none →
      r.stops q = some why → PartlyEmptied place h h' → Discarding r h d (.error why) h'
  | stuck {place : Place} {why : ε} : h.locate false d = .ok place →
      h.tree.get? place = some .directory →
      (∀ dir, (h.emptied place).directory d.parent ≠ .ok dir) →
      Discarding r h d (.error why) (h.emptied place)

/-- A straight path leads through nothing that is below its directory. -/
theorem exists_directory_emptied (hc : h.tree.IsClosed) (hs : h.IsStraight d)
    (hp : d.parts ≠ []) (hl : h.locate false d = .ok place) (hg : h.tree.get? place ≠ none) :
    ∃ dir, (h.emptied place).directory d.parent = .ok dir := by
  obtain ⟨rfl, hpath, hshort⟩ := eq_spot_of_locate hs hl
  obtain ⟨name, -, hnames⟩ := exists_splitLast hp
  have hspot := spot_of_splitLast h hnames
  have hsmaller : Shrinks h (h.emptied (h.spot d)) := shrinks_eraseBelow h (h.spot d)
  have hopen : ∀ q, q <+: h.spot d.parent →
      (h.emptied (h.spot d)).tree.get? q = some .directory := by
    intro q hq
    have hbelow : ¬h.spot d <+: q := fun hd => by
      have hlen := (hd.trans hq).length_le
      rw [hspot, List.length_append, List.length_singleton] at hlen
      omega
    rw [get?_emptied h hbelow]
    exact hc.above (hq.trans (spot_parent_le h d)) (fun he => hbelow (he ▸ List.prefix_refl _)) hg
  refine ⟨h.spot d.parent, directory_eq_ok.2 ⟨?_, hopen _ (List.prefix_refl _)⟩⟩
  refine locate_of_isOpen (hsmaller.isStraight hs).parent (fun q hq _ => hopen q hq) ?_
    (fun hle => hpath (maxPath_le_of_parent hle)) ?_
  · have hstart : (h.emptied (h.spot d)).start d.parent <+: h.spot d.parent :=
      List.prefix_append ..
    simp [hopen _ hstart]
  · rw [hnames] at hshort
    exact fun n hn => hshort n (List.mem_append_left _ hn)

/-- A directory that was emptied goes if it can still be found. -/
theorem removeEmpty_emptied (hp : d.parts ≠ []) (hn : d.name ≠ Path.parentName)
    (hl : h.locate false d = .ok place) (hg : h.tree.get? place = some .directory) :
    (place ≠ [] ∧ (h.emptied place).removeEmpty d =
        .ok { h.emptied place with tree := (h.emptied place).tree.erase place }) ∨
      (∀ dir, (h.emptied place).directory d.parent ≠ .ok dir) ∧
        ∃ c, (h.emptied place).removeEmpty d = .error c := by
  have hlast : splitLast d = some (d.parent, entryName d.name) := by
    rw [splitLast, Path.name, List.getLast?_eq_some_getLast hp]
    rfl
  have hn' : entryName d.name ≠ Path.parentName := entryName_ne hn
  cases hd : (h.emptied place).directory d.parent with
  | error c => exact .inr ⟨by simp, c, by simp [removeEmpty, hlast, hd, bind, Except.bind]⟩
  | ok dir =>
    have hplace : place = dir ++ [entryName d.name] :=
      place_of_splitLast hlast hn' (directory_of_extends (extends_of_emptied h _) hd) hl
    have hkept : (h.emptied place).tree.get? place = some .directory :=
      (get?_emptied_self h place).trans hg
    have hbare : (h.emptied place).tree.childNames place = [] := childNames_emptied h place
    refine .inl ⟨by simp [hplace], ?_⟩
    simp only [removeEmpty, hlast, hd, bind, Except.bind, hn', if_false, ← hplace, hkept, hbare,
      if_true]

section

variable {ε : Type} (r : TreeRemoval ε)

theorem removeTreeBy_discarding (hp : d.parts ≠ []) (hn : d.name ≠ Path.parentName) :
    Discarding r h d (h.removeTreeBy r d).1 (h.removeTreeBy r d).2 := by
  unfold removeTreeBy
  split
  · exact .refused
  · exact .refused
  · exact .refused
  next n place hlink hnode hdir =>
  obtain ⟨hl, hg⟩ := directory_eq_ok.1 hdir
  have hown : h.locate false d = .ok place := by
    refine (locate_unfollowed hl).resolve_left ?_
    rintro ⟨link, target, hend, hglink⟩
    have hend' : h.node false d = .ok (.link target) := by
      simp [node, hend, hglink, bind, Except.bind]
    exact hlink target (Except.ok.inj (hnode.symm.trans hend'))
  have hpart := partlyEmptied_without r h place
  rw [r.removeBelow_eq]
  cases hend : r.outcome (r.order place (h.tree.entries.map Prod.fst)) with
  | error why =>
    obtain ⟨q, hq, hstop⟩ := TreeRemoval.exists_of_outcome_eq_error hend
    obtain ⟨hmem, hbelow⟩ := (r.mem_order _ _ _).1 hq
    exact .stopped hown hg (Tree.isBelow_eq_true.1 hbelow).1
      ((Tree.mem_places_iff (Tree.ne_nil_of_isBelow hbelow)).1 hmem) hstop hpart
  | ok _ =>
    -- everything below is gone, and the directory itself is left
    rw [TreeRemoval.gone_of_outcome_eq_ok hend,
      Tree.without_eq_eraseBelow fun q => r.mem_order _ _ _] at hpart ⊢
    cases hstop : r.stops place with
    | some why => exact .stopped hown hg (List.prefix_refl _) (by simp [hg]) hstop hpart
    | none =>
      rcases removeEmpty_emptied hp hn hown hg with ⟨hroot, hgone⟩ | ⟨hstuck, c, hgone⟩ <;>
        rw [emptied] at hgone <;> simp only [hgone]
      · have hshrinks := (shrinks_eraseBelow h place).trans (shrinks_erase (h.emptied place) place)
        refine .done hown hshrinks ((Tree.get?_erase _ hroot _).trans (if_pos rfl)) fun q hq => ?_
        have hne : q ≠ place := fun he => hq (he ▸ List.prefix_refl _)
        exact (Tree.get?_erase _ hroot _).trans ((if_neg hne).trans (get?_emptied h hq))
      · exact .stuck hown hg hstuck

theorem unlinkBy_discarding : Discarding r h d (h.unlinkBy r d).1 (h.unlinkBy r d).2 := by
  unfold unlinkBy
  split
  · exact .refused
  next place hl =>
  split
  · exact .refused
  · exact .refused
  · exact .refused
  · next n hdir hg hstop =>
    have hroot : place ≠ [] := by
      rintro rfl
      exact hdir (Option.some.inj hg).symm
    refine .done hl (shrinks_erase h place) ((Tree.get?_erase _ hroot _).trans (if_pos rfl))
      fun q hq => (Tree.get?_erase _ hroot _).trans (if_neg fun he => ?_)
    exact hq (he ▸ List.prefix_refl _)

theorem discardBy_discarding (hp : d.parts ≠ []) (hn : d.name ≠ Path.parentName) :
    Discarding r h d (h.discardBy r d).1 (h.discardBy r d).2 := by
  unfold discardBy
  split
  · exact .refused
  · exact removeTreeBy_discarding r hp hn
  · exact unlinkBy_discarding r

end

end Host

/-! ## Removing the scratch directory -/

/-- Only an exit says that a command succeeded. -/
theorem Reply.exited_of_verdict {r : Reply} (h : r.verdict = .ok 0) :
    ∃ out err, r = .exited 0 out err := by
  rcases r with ⟨status, out, err⟩ | ⟨_ | _, _⟩ | _ | _
  · cases h
    exact ⟨out, err, rfl⟩
  all_goals cases h

namespace Job

open Host

variable {j : Job} {how : TreeRemoval Failure} {h h' : Host} {acts : List Event}
  {res : Except Failure Bool}

/-- The removal looks for a mount exactly if there is something at the path. -/
theorem RemovalBy.startsOf_eq_nil_iff (hr : j.RemovalBy Still how h acts res h') :
    startsOf acts = [] ↔ h.doesExist j.mountDir ≠ .ok true := by
  cases hr with
  | unseen he | absent he => simp [he, startsOf, Event.start?]
  | _ => simp [*, startsOf, Event.start?, event]

/-- A removal that says so has removed the entry, or found nothing. -/
theorem RemovalBy.gone (hr : j.RemovalBy Still how h acts (.ok true) h')
    (hp : j.mountDir.parts ≠ []) (hn : j.mountDir.name ≠ Path.parentName) :
    h'.doesExist j.mountDir = .ok false ∧
      ∀ q, (∀ place, h.locate false j.mountDir = .ok place → ¬place <+: q) →
        h'.tree.get? q = h.tree.get? q := by
  generalize hres : (Except.ok true : Except Failure Bool) = res at hr
  cases hr with
  | unseen _ | broken _ _ _ | mounted _ _ _ | unclear _ _ _ _ _ => cases hres
  | absent he => exact ⟨he, fun _ _ => rfl⟩
  | removed _ ht _ _ _ =>
    cases ht
    have hd := discardBy_discarding (h := h) how hp hn
    generalize h.discardBy how j.mountDir = removed at hd hres
    obtain ⟨out, m⟩ := removed
    cases hd with
    | done hl hs hg hkept => exact ⟨hs.doesExist_of_lost hl hg, fun q hq => hkept q (hq _ hl)⟩
    | refused | stopped | stuck => cases hres

/-- A removal that leaves the scratch directory alone saw that it is mounted. -/
theorem RemovalBy.mounted_of_false (hr : j.RemovalBy Still how h acts (.ok false) h') :
    h' = h ∧ ∃ out err,
      .started (j.tools.start (.mountpoint j.mountDir)) (.exited 0 out err) ∈ acts := by
  generalize hres : (Except.ok false : Except Failure Bool) = res at hr
  cases hr with
  | unseen _ | absent _ | broken _ _ _ | unclear _ _ _ _ _ => cases hres
  | mounted _ ht hv =>
    obtain ⟨out, err, rfl⟩ := Reply.exited_of_verdict hv
    exact ⟨ht, out, err, .tail _ (.head _)⟩
  | removed _ ht _ _ _ =>
    cases ht
    generalize h.discardBy how j.mountDir = removed at hres
    obtain ⟨out, m⟩ := removed
    cases out <;> cases hres

/-- A removal that fails has removed nothing, or was broken off in a directory: because an entry
may not be removed, or because the directory that it emptied cannot be found any more. -/
theorem RemovalBy.kept_or_broken {f : Failure} (hr : j.RemovalBy Still how h acts (.error f) h')
    (hp : j.mountDir.parts ≠ []) (hn : j.mountDir.name ≠ Path.parentName) :
    h' = h ∨ ∃ place, h.locate false j.mountDir = .ok place ∧
      h.tree.get? place = some .directory ∧
        ((∃ q, place <+: q ∧ h.tree.get? q ≠ none ∧ how.stops q = some f) ∧
            PartlyEmptied place h h' ∨
          (∀ dir, (h.emptied place).directory j.mountDir.parent ≠ .ok dir) ∧
            h' = h.emptied place) := by
  generalize hres : (Except.error f : Except Failure Bool) = res at hr
  cases hr with
  | unseen _ => exact .inl rfl
  | absent _ | mounted _ _ _ => cases hres
  | broken _ ht _ | unclear _ ht _ _ _ => exact .inl ht
  | removed _ ht _ _ _ =>
    cases ht
    have hd := discardBy_discarding (h := h) how hp hn
    generalize h.discardBy how j.mountDir = removed at hd hres
    obtain ⟨out, m⟩ := removed
    cases hd with
    | done => cases hres
    | refused => exact .inl rfl
    | stopped hl hg hle hq hstop hpart =>
      cases hres
      exact .inr ⟨_, hl, hg, .inl ⟨⟨_, hle, hq, hstop⟩, hpart⟩⟩
    | stuck hl hg hstuck => exact .inr ⟨_, hl, hg, .inr ⟨hstuck, rfl⟩⟩

end Job

open Host in
/-- What a removal of the scratch directory leaves, for each of its results, when no program touches
the host, whatever the host may refuse to remove and in whichever order the entries go. It looks
for a mount exactly if there is something at the path. If it says that the scratch directory is
gone, then the path leads to nothing, and only the entry that it named and what was below it can be
missing. If it leaves it alone, then because something is mounted there. If it fails, nothing has
changed, unless the path names a directory. Then some of what was below the directory can be gone,
each entry with all that was below it, because the host refused to remove another one, with the
failure that is reported. Or the path leads to the directory through what is below it, as only a
path with `..` or links can: the directory is empty then. What was written to logs is left out. -/
theorem removeScratchDir_allOrNothing {how : TreeRemoval Failure} {programs : Programs} {j : Job}
    {w : World} (hp : Inert programs) (hj : j.IsLive) (hparts : j.mountDir.parts ≠ [])
    (hname : j.mountDir.name ≠ Path.parentName) :
    let d := j.mountDir
    let logs := w.journal.openLogs
    let run := j.removeScratchDirBy how programs w
    ∃ added, run.2.trace = w.trace ++ added ∧
      (startsOf added = [] ↔ w.host.doesExist d ≠ .ok true) ∧
      match run.1 with
      | .ok true => run.2.host.doesExist d = .ok false ∧
        ∀ q, (∀ place, w.host.locate false d = .ok place → ¬place <+: q) →
          (run.2.host.tree.get? q).map (Node.blank logs) =
            (w.host.tree.get? q).map (Node.blank logs)
      | .ok false => SameButLogs logs w.host run.2.host ∧ ∃ out err,
        .started (j.tools.start (.mountpoint d)) (.exited 0 out err) ∈ added
      | .error f => SameButLogs logs w.host run.2.host ∨ ∃ place,
        w.host.locate false d = .ok place ∧ w.host.tree.get? place = some .directory ∧
          ((∃ q, place <+: q ∧ w.host.tree.get? q ≠ none ∧ how.stops q = some f) ∧
              PartlyEmptied place (w.host.blank logs) (run.2.host.blank logs) ∨
            (∀ dir, (w.host.emptied place).directory d.parent ≠ .ok dir) ∧
              (w.host.tree.IsClosed → ¬w.host.IsStraight d) ∧
                SameButLogs logs (w.host.emptied place) run.2.host) := by
  intro d logs run
  obtain ⟨added, ht, -, -, hr⟩ :=
    Job.obeys_removeScratchDirBy (s := .still programs logs hp) how hj w rfl rfl
  change j.RemovalBy Still how (w.host.blank logs) (actsOf added) run.1 (run.2.host.blank logs)
    at hr
  refine ⟨added, ht, ?_, ?_⟩
  · rw [← startsOf_actsOf, hr.startsOf_eq_nil_iff, doesExist_blank]
  cases hres : run.1 with
  | ok gone =>
    rw [hres] at hr
    cases gone with
    | true =>
      obtain ⟨hgone, hkept⟩ := hr.gone hparts hname
      simp only [doesExist_blank, locate_blank, blank_tree, Tree.get?_blank] at hgone hkept
      exact ⟨hgone, hkept⟩
    | false =>
      obtain ⟨hsame, out, err, hmem⟩ := hr.mounted_of_false
      exact ⟨hsame, out, err, (List.mem_filter.1 hmem).1⟩
  | error f =>
    rw [hres] at hr
    refine (hr.kept_or_broken hparts hname).imp_right ?_
    rintro ⟨place, hl, hg, hleft⟩
    rw [locate_blank] at hl
    have hdir : w.host.tree.get? place = some .directory := by
      rw [blank_tree, Tree.get?_blank] at hg
      obtain ⟨n, hn, hblank⟩ := Option.map_eq_some_iff.1 hg
      cases n <;> simp_all [Node.blank]
    refine ⟨place, hl, hdir, hleft.imp ?_ ?_⟩
    · rintro ⟨⟨q, hle, hq, hstop⟩, hpart⟩
      rw [blank_tree, Tree.get?_blank, ne_eq, Option.map_eq_none_iff] at hq
      exact ⟨⟨q, hle, hq, hstop⟩, hpart⟩
    · rintro ⟨hstuck, hleft⟩
      have hemptied : (w.host.blank logs).emptied place = (w.host.emptied place).blank logs := by
        simp [emptied, blank]
      rw [hemptied] at hstuck hleft
      simp only [directory_blank] at hstuck
      refine ⟨hstuck, fun hc hs => ?_, hleft⟩
      obtain ⟨dir, hfound⟩ := exists_directory_emptied hc hs hparts hl (by simp [hdir])
      exact hstuck dir hfound

/-- A full scratch directory goes, and what a link in it leads to stays. -/
theorem removeScratchDir_full :
    let h : Host := ⟨⟨[(["keep"], .directory), (["keep", "note"], .file 0 [3]),
      (["mnt"], .directory), (["mnt", "away"], .link "../keep"), (["mnt", "old"], .file 1 [])], 2⟩,
      []⟩
    let j : Job := ⟨Path.ofString "app.bin", Path.ofString "disk.img", Path.ofString "mnt", "/sbin",
      ⟨true, false⟩, false⟩
    let run := j.removeScratchDir failing (.untouched h)
    Inert failing ∧ j.IsLive ∧ j.mountDir.parts ≠ [] ∧ j.mountDir.name ≠ Path.parentName ∧
      run.1 = .ok true ∧ run.2.host.doesExist j.mountDir = .ok false ∧
        run.2.host.tree.get? ["keep", "note"] = some (.file 0 [3]) := by
  intro h j run
  have hp : Inert failing := quiet_failing.inert
  have hj : j.IsLive := ⟨rfl, rfl⟩
  have hparts : j.mountDir.parts ≠ [] := by decide +kernel
  have hname : j.mountDir.name ≠ Path.parentName := by decide +kernel
  have hplace : h.locate false j.mountDir = .ok ["mnt"] := eq_ok_of_toOption (by decide +kernel)
  have hres : run.1 = .ok true := eq_ok_of_toOption (by decide +kernel)
  obtain ⟨added, -, -, hrest⟩ :=
    removeScratchDir_allOrNothing (w := .untouched h) hp hj hparts hname
  change match run.1 with | .ok true => _ | .ok false => _ | .error _ => _ at hrest
  rw [hres] at hrest
  obtain ⟨hgone, hkept⟩ := hrest
  refine ⟨hp, hj, hparts, hname, hres, hgone, ?_⟩
  have hnote := hkept ["keep", "note"] fun place hl => by
    cases hplace.symm.trans hl
    decide
  have hblank : Host.Node.blank (World.untouched h).journal.openLogs = id :=
    funext Host.Node.blank_nil
  rw [hblank, Option.map_id_apply, Option.map_id_apply] at hnote
  exact hnote

-- A note that may not be removed stays with the directories above it.
open Host in
example :
    let h : Host := ⟨⟨[(["mnt"], .directory), (["mnt", "kept"], .directory),
      (["mnt", "kept", "note"], .file 0 []), (["mnt", "old"], .file 1 [])], 2⟩, []⟩
    let j : Job := ⟨Path.ofString "app.bin", Path.ofString "disk.img", Path.ofString "mnt", "/sbin",
      ⟨true, false⟩, false⟩
    let why : Failure := .refused (.system .denied "note")
    let how : TreeRemoval Failure := { TreeRemoval.plain .refused with
      stops := fun q => if q.length = 3 then some why else none }
    let run := j.removeScratchDirBy how failing (.untouched h)
    errorOf run.1 = some why ∧ run.2.host.tree.get? ["mnt", "old"] = none ∧
      run.2.host.tree.get? ["mnt", "kept", "note"] = some (.file 0 []) := by
  decide +kernel

/-- A scratch directory is emptied and stays if its path leads through a directory in it. -/
theorem removeScratchDir_stuck :
    let h : Host := ⟨⟨[(["mnt"], .directory), (["mnt", "x"], .directory)], 0⟩, []⟩
    let j : Job := ⟨Path.ofString "app.bin", Path.ofString "disk.img",
      Path.ofString "mnt/x/../../mnt", "/sbin", ⟨true, false⟩, false⟩
    let run := j.removeScratchDir failing (.untouched h)
    Inert failing ∧ j.IsLive ∧ j.mountDir.parts ≠ [] ∧ j.mountDir.name ≠ Path.parentName ∧
      (∃ f, run.1 = .error f) ∧ run.2.host.tree.get? ["mnt", "x"] = none ∧
        h.tree.get? ["mnt", "x"] = some .directory := by
  intro h j run
  have hres : errorOf run.1 =
      some (.refused (.system .missing "mnt/x/../../mnt")) := by decide +kernel
  exact ⟨quiet_failing.inert, ⟨rfl, rfl⟩, by decide +kernel, by decide +kernel,
    ⟨_, eq_error_of_errorOf hres⟩, by decide +kernel, by decide +kernel⟩

end FatInstall
