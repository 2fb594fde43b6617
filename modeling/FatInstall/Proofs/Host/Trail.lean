import FatInstall.Proofs.Host.Entries
import FatInstall.Proofs.Host.Logs

/-!
# What lies on the way to a file

The way of a path is the list of places that the host looks at when it follows the path: where it
leads down from, each directory and link that it goes through, and where it ends. A path that leads
to a file leads to the same file on another host as long as nothing on its way is another there, and
to nothing as soon as something on its way is gone.

* `Host.way`: the way of a path.
* `node_of_way`: a file is found by its way alone.
* `node_ne_ok_of_gone`: a file is lost with each place of its way.
* `extends_makeDirectory`, `shrinks_discard`: making a directory keeps all that is there, and
  removing what a path names changes nothing that it leaves there.
-/

namespace FatInstall.Host

/-! ## The way of a path -/

/-- The places that a walk down a list of names looks at. -/
def trailNames (t : Tree) (follow : String → Place → List Text → List Place) :
    Place → List Text → List Place
  | _, [] => []
  | here, name :: rest =>
    if name = Path.parentName then trailNames t follow here.dropLast rest
    else (here ++ [name]) :: match t.get? (here ++ [name]) with
      | some .directory => trailNames t follow (here ++ [name]) rest
      | some (.link target) => follow target here rest
      | _ => []

/-- The places that a walk looks at. -/
def trail (t : Tree) : Nat → Place → List Text → List Place
  | 0 => trailNames t fun _ _ _ => []
  | links + 1 => trailNames t fun target here rest =>
    let p := Path.ofString target
    trail t links (if p.isAbsolute then [] else here) (p.parts ++ rest)

/-- The places that a path leads through: where it leads down from, those that are looked at, and
its end. -/
def way (h : Host) (p : Path) : List Place :=
  h.foothold p :: ((h.locate true p).toOption.toList ++
    trail h.tree maxLinks (h.start p) (p.parts.map entryName))

/-- Is something there that is no directory? -/
def Tree.HasFile (t : Tree) (place : Place) : Prop :=
  ∃ n, t.get? place = some n ∧ n ≠ .directory

/-- How a walk follows links: for a target, the place it is taken from and the names to come. -/
abbrev Follow (α : Type) := String → Place → List Text → α

section

variable {t t' : Tree} {f f' : Follow (Except Cause Place)} {g : Follow (List Place)}
  {here place : Place} {names : List Text}

theorem walkNames_present
    (hf : ∀ target here rest, f target here rest = .ok place →
      ∀ q ∈ g target here rest, t.get? q ≠ none)
    (hw : walkNames t true f here names = .ok place) (hp : t.get? place ≠ none) :
    ∀ q ∈ trailNames t g here names, t.get? q ≠ none := by
  induction names generalizing here with
  | nil => simp [trailNames]
  | cons name rest ih =>
    by_cases hn : name = Path.parentName
    · simp only [walkNames, trailNames, hn, if_true] at hw ⊢
      exact ih hw
    by_cases hs : maxName < name.byteSize
    · simp only [walkNames, hn, hs, if_true, if_false] at hw
      cases hw
    simp only [walkNames, trailNames, hn, hs, if_false, List.forall_mem_cons] at hw ⊢
    cases hg : t.get? (here ++ [name]) with
    | none =>
      rw [hg] at hw
      by_cases hr : rest = []
      · simp only [hr, if_true] at hw
        cases hw
        exact (hp hg).elim
      · simp only [hr, if_false] at hw
        cases hw
    | some n =>
      refine ⟨by simp, ?_⟩
      rw [hg] at hw
      cases n with
      | directory => exact ih hw
      | link target => exact hf target here rest (by simpa using hw)
      | _ => simp

/-- A walk goes the same way where the trees are the same. -/
theorem walkNames_same
    (hf : ∀ target here rest, f target here rest = .ok place →
      (∀ q ∈ g target here rest, t'.get? q = t.get? q) → f' target here rest = .ok place)
    (hw : walkNames t true f here names = .ok place)
    (hq : ∀ q ∈ trailNames t g here names, t'.get? q = t.get? q) :
    walkNames t' true f' here names = .ok place := by
  induction names generalizing here with
  | nil => exact hw
  | cons name rest ih =>
    by_cases hn : name = Path.parentName
    · simp only [walkNames, trailNames, hn, if_true] at hw hq ⊢
      exact ih hw hq
    by_cases hs : maxName < name.byteSize
    · simp only [walkNames, hn, hs, if_true, if_false] at hw
      cases hw
    simp only [walkNames, trailNames, hn, hs, if_false, List.forall_mem_cons] at hw hq ⊢
    rw [hq.1]
    cases hg : t.get? (here ++ [name]) with
    | none =>
      rw [hg] at hw
      exact hw
    | some n =>
      rw [hg] at hw hq
      cases n with
      | directory => exact ih hw hq.2
      | link target =>
        simp only [Bool.true_eq_false, and_false, if_false] at hw ⊢
        exact hf target here rest hw hq.2
      | _ => exact hw

/-- A walk comes to nothing where something on its way is gone. -/
theorem walkNames_gone
    (hf : ∀ target here rest, f target here rest = .ok place →
      (∀ q ∈ g target here rest, t'.get? q = none ∨ t'.get? q = t.get? q) →
      (∃ q ∈ g target here rest, t'.get? q ≠ t.get? q) →
        ∀ place', f' target here rest = .ok place' → t'.get? place' = none)
    (hw : walkNames t true f here names = .ok place)
    (hle : ∀ q ∈ trailNames t g here names, t'.get? q = none ∨ t'.get? q = t.get? q)
    (hq : ∃ q ∈ trailNames t g here names, t'.get? q ≠ t.get? q) :
    ∀ place', walkNames t' true f' here names = .ok place' → t'.get? place' = none := by
  induction names generalizing here with
  | nil =>
    obtain ⟨q, hm, -⟩ := hq
    cases hm
  | cons name rest ih =>
    intro place' hw'
    by_cases hn : name = Path.parentName
    · simp only [walkNames, trailNames, hn, if_true] at hw hle hq hw'
      exact ih hw hle hq place' hw'
    by_cases hs : maxName < name.byteSize
    · simp only [walkNames, hn, hs, if_true, if_false] at hw
      cases hw
    simp only [walkNames, trailNames, hn, hs, if_false, List.forall_mem_cons] at hw hle hq hw'
    obtain ⟨hhead, hle⟩ := hle
    by_cases hsame : t'.get? (here ++ [name]) = t.get? (here ++ [name])
    · -- the first difference lies further on
      obtain ⟨q, hm, hne⟩ := hq
      have hm := (List.mem_cons.1 hm).resolve_left fun he => hne (he ▸ hsame)
      rw [hsame] at hw'
      cases hg : t.get? (here ++ [name]) with
      | none =>
        rw [hg] at hm
        cases hm
      | some n =>
        rw [hg] at hw hle hm hw'
        cases n with
        | directory => exact ih hw hle ⟨q, hm, hne⟩ place' hw'
        | link target =>
          simp only [Bool.true_eq_false, and_false, if_false] at hw hw'
          exact hf target here rest hw hle ⟨q, hm, hne⟩ place' hw'
        | _ => cases hm
    · have hnone := hhead.resolve_right hsame
      rw [hnone] at hw'
      by_cases hr : rest = []
      · simp only [hr, if_true] at hw'
        cases hw'
        exact hnone
      · simp only [hr, if_false] at hw'
        cases hw'

/-- A link that is written as a directory leads to a directory only. -/
theorem followed_eq_ok {x : Except Cause Place} {c : Prop} [Decidable c] :
    (do let place ← x; if c then directoryAt t place else return place) = .ok place ↔
      x = .ok place ∧ (c → t.get? place = some .directory) := by
  rcases x with cause | place'
  · simp [bind, Except.bind]
  · by_cases hc : c
    · simp only [bind, Except.bind, hc, if_true, directoryAt, Except.ok.injEq, true_implies]
      constructor
      · intro h
        split at h
        · next hd => cases h; exact ⟨rfl, hd⟩
        all_goals cases h
      · rintro ⟨rfl, hd⟩
        rw [hd]
    · simp [bind, Except.bind, hc, pure, Except.pure]

theorem Tree.HasFile.not_directory (hp : t.HasFile place) : t.get? place ≠ some .directory := by
  obtain ⟨n, hn, hd⟩ := hp
  simpa [hn] using hd

theorem Tree.HasFile.present (hp : t.HasFile place) : t.get? place ≠ none := by
  obtain ⟨n, hn, -⟩ := hp
  simp [hn]

variable {links : Nat}

theorem walk_present (hw : walk t true links here names = .ok place) (hp : t.HasFile place) :
    ∀ q ∈ trail t links here names, t.get? q ≠ none := by
  induction links generalizing here names with
  | zero => exact walkNames_present (by simp) hw hp.present
  | succ links ih =>
    exact walkNames_present (fun target here rest hf => ih (followed_eq_ok.1 hf).1) hw hp.present

theorem walk_same (hw : walk t true links here names = .ok place) (hp : t.HasFile place)
    (hq : ∀ q ∈ trail t links here names, t'.get? q = t.get? q) :
    walk t' true links here names = .ok place := by
  induction links generalizing here names with
  | zero => exact walkNames_same (g := fun _ _ _ => []) (by simp) hw hq
  | succ links ih =>
    refine walkNames_same (fun target here rest hf hq => ?_) hw hq
    obtain ⟨hw, hd⟩ := followed_eq_ok.1 hf
    exact followed_eq_ok.2 ⟨ih hw hq, fun hc => (hp.not_directory (hd hc)).elim⟩

theorem walk_gone (hw : walk t true links here names = .ok place)
    (hle : ∀ q ∈ trail t links here names, t'.get? q = none ∨ t'.get? q = t.get? q)
    (hq : ∃ q ∈ trail t links here names, t'.get? q ≠ t.get? q) :
    ∀ place', walk t' true links here names = .ok place' → t'.get? place' = none := by
  induction links generalizing here names with
  | zero => exact walkNames_gone (g := fun _ _ _ => []) (by simp) hw hle hq
  | succ links ih =>
    refine walkNames_gone (fun target here rest hf hle hq place' hf' => ?_) hw hle hq
    exact ih (followed_eq_ok.1 hf).1 hle hq place' (followed_eq_ok.1 hf').1

end

/-! ## Files and their way -/

section

variable {h h' : Host} {p : Path} {n : Node}

theorem locate_of_node (hn : h.node true p = .ok n) :
    ∃ place, h.locate true p = .ok place ∧ h.tree.get? place = some n := by
  unfold node at hn
  cases hl : h.locate true p with
  | error c =>
    rw [hl] at hn
    cases hn
  | ok place =>
    rw [hl] at hn
    simp only [bind, Except.bind] at hn
    cases hg : h.tree.get? place with
    | none => simp [hg] at hn
    | some m =>
      rw [hg] at hn
      cases hn
      exact ⟨place, rfl, hg⟩

theorem start_congr (hhere : h'.here = h.here) (p : Path) : h'.start p = h.start p := by
  rw [start, start, hhere]

theorem foothold_congr (hhere : h'.here = h.here) (p : Path) : h'.foothold p = h.foothold p := by
  rw [foothold, foothold, start_congr hhere]

theorem walk_of_locate {last : Bool} {place : Place} (hl : h.locate last p = .ok place) :
    ¬maxPath ≤ p.text.byteSize ∧ h.tree.get? (h.foothold p) ≠ none ∧
      walk h.tree last maxLinks (h.start p) (p.parts.map entryName) = .ok place := by
  unfold locate at hl
  split at hl
  · cases hl
  · next hm =>
    split at hl
    · cases hl
    · next hs => exact ⟨hm, hs, hl⟩

/-- Everything on the way to a file is there. -/
theorem present_of_way (hn : h.node true p = .ok n) (hd : n ≠ .directory) :
    ∀ q ∈ h.way p, h.tree.get? q ≠ none := by
  obtain ⟨place, hl, hg⟩ := locate_of_node hn
  obtain ⟨-, hs, hw⟩ := walk_of_locate hl
  simp only [way, hl, Except.toOption, Option.toList, List.forall_mem_cons, List.singleton_append]
  exact ⟨hs, by simp [hg], walk_present hw ⟨n, hg, hd⟩⟩

/-- A file is found by its way alone. -/
theorem node_of_way (hhere : h'.here = h.here) (hn : h.node true p = .ok n) (hd : n ≠ .directory)
    (hq : ∀ q ∈ h.way p, h'.tree.get? q = h.tree.get? q) : h'.node true p = .ok n := by
  obtain ⟨place, hl, hg⟩ := locate_of_node hn
  obtain ⟨hm, hs, hw⟩ := walk_of_locate hl
  simp only [way, hl, Except.toOption, Option.toList, List.forall_mem_cons, List.singleton_append]
    at hq
  have hs' : h'.tree.get? (h'.foothold p) ≠ none := by rwa [foothold_congr hhere, hq.1]
  have hl' : h'.locate true p = .ok place := by
    rw [locate, if_neg hm, if_neg hs', start_congr hhere]
    exact walk_same hw ⟨n, hg, hd⟩ hq.2.2
  simp [node, hl', bind, Except.bind, hq.2.1, hg]

/-- A file is lost with each place on its way. -/
theorem node_ne_ok_of_gone (hhere : h'.here = h.here) (hn : h.node true p = .ok n)
    (hd : n ≠ .directory)
    (hle : ∀ q ∈ h.way p, h'.tree.get? q = none ∨ h'.tree.get? q = h.tree.get? q)
    (hq : ∃ q ∈ h.way p, h'.tree.get? q = none) (m : Node) : h'.node true p ≠ .ok m := by
  intro hm
  obtain ⟨place', hl', hg'⟩ := locate_of_node hm
  obtain ⟨-, hs', hw'⟩ := walk_of_locate hl'
  obtain ⟨place, hl, hg⟩ := locate_of_node hn
  obtain ⟨-, hs, hw⟩ := walk_of_locate hl
  rw [foothold_congr hhere] at hs'
  rw [start_congr hhere] at hw'
  obtain ⟨q, hmem, hnone⟩ := hq
  simp only [way, hl, Except.toOption, Option.toList, List.mem_cons, List.singleton_append] at hmem
  simp only [way, hl, Except.toOption, Option.toList, List.forall_mem_cons, List.singleton_append]
    at hle
  have hsame : ∀ q ∈ trail h.tree maxLinks (h.start p) (p.parts.map entryName),
      h'.tree.get? q = h.tree.get? q := by
    intro r hr
    refine Classical.byContradiction fun hne => ?_
    rw [walk_gone hw hle.2.2 ⟨r, hr, hne⟩ place' hw'] at hg'
    cases hg'
  rcases hmem with rfl | rfl | hmem
  · exact hs' hnone
  · -- the walk ends where the file was
    rw [walk_same hw ⟨n, hg, hd⟩ hsame] at hw'
    cases hw'
    rw [hnone] at hg'
    cases hg'
  · exact present_of_way hn hd q (by simp [way, hmem]) (hsame q hmem ▸ hnone)

end

/-! ## Logs -/

variable (logs : List Nat)

theorem trailNames_blank (t : Tree) (g : Follow (List Place)) (here : Place) (names : List Text) :
    trailNames (t.blank logs) g here names = trailNames t g here names := by
  induction names generalizing here with
  | nil => rfl
  | cons name rest ih =>
    simp only [trailNames, Tree.get?_blank, ih]
    rcases t.get? (here ++ [name]) with _ | _ | _ | _ | _ <;> rfl

theorem trail_blank (t : Tree) (links : Nat) (here : Place) (names : List Text) :
    trail (t.blank logs) links here names = trail t links here names := by
  induction links generalizing here names with
  | zero => exact trailNames_blank ..
  | succ links ih => simp only [trail, trailNames_blank, ih]

/-- The way of a path is the same with and without logs. -/
theorem way_blank (h : Host) (p : Path) : (h.blank logs).way p = h.way p := by
  have hs : (h.blank logs).start p = h.start p := rfl
  have hf : (h.blank logs).foothold p = h.foothold p := rfl
  simp only [way, hs, hf, locate_blank, blank_tree, trail_blank]

variable {logs}

/-! ## Making and removing -/

/-- Looking up a place after entries were dropped by their places. -/
theorem lookup_filter_places (f : Place → Bool) (q : Place) (es : List (Place × Node)) :
    (es.filter fun e => f e.1).lookup q = if f q then es.lookup q else none := by
  induction es with
  | nil => simp
  | cons e es ih =>
    obtain ⟨r, n⟩ := e
    by_cases hq : q = r
    · subst hq
      by_cases hf : f q
      · simp [hf]
      · simp [hf, ih]
    · have hb : (q == r) = false := by simpa using hq
      by_cases hf : f r
      · simp [hf, List.lookup_cons, hb, ih]
      · simp [hf, List.lookup_cons, hb, ih]

/-- The second host has all that is on the first one, as it is there. -/
structure Extends (h h' : Host) : Prop where
  here : h'.here = h.here
  get? : ∀ q, h.tree.get? q ≠ none → h'.tree.get? q = h.tree.get? q

/-- The second host has nothing that is not on the first one, as it is there. -/
structure Shrinks (h h' : Host) : Prop where
  here : h'.here = h.here
  get? : ∀ q, h'.tree.get? q = none ∨ h'.tree.get? q = h.tree.get? q

variable {h h' h'' : Host} {p : Path}

theorem Extends.refl (h : Host) : Extends h h := ⟨rfl, fun _ _ => rfl⟩

theorem Extends.trans (a : Extends h h') (b : Extends h' h'') : Extends h h'' :=
  ⟨b.here.trans a.here, fun q hq => (b.get? q (by rwa [a.get? q hq])).trans (a.get? q hq)⟩

theorem Shrinks.refl (h : Host) : Shrinks h h := ⟨rfl, fun _ => .inr rfl⟩

theorem Shrinks.trans (a : Shrinks h h') (b : Shrinks h' h'') : Shrinks h h'' := by
  refine ⟨b.here.trans a.here, fun q => ?_⟩
  rcases b.get? q with hb | hb
  · exact .inl hb
  · rw [hb]
    exact a.get? q

theorem shrinks_erase (h : Host) (place : Place) :
    Shrinks h { h with tree := h.tree.erase place } := by
  refine ⟨rfl, fun q => ?_⟩
  simp only [Tree.get?, Tree.erase, lookup_filter_places (· != place)]
  split
  · exact .inr rfl
  · split
    · exact .inr rfl
    · exact .inl rfl

theorem shrinks_eraseBelow (h : Host) (place : Place) :
    Shrinks h { h with tree := h.tree.eraseBelow place } := by
  refine ⟨rfl, fun q => ?_⟩
  simp only [Tree.get?, Tree.eraseBelow, lookup_filter_places (!Tree.isBelow place ·)]
  split
  · exact .inr rfl
  · split
    · exact .inr rfl
    · exact .inl rfl

theorem extends_makeOne (hm : h.makeOne p = .ok h') : Extends h h' := by
  unfold makeOne at hm
  split at hm
  · cases hm
  · next above name _ =>
    cases hd : h.directory above with
    | error c =>
      simp only [hd, bind, Except.bind] at hm
      split at hm <;> cases hm
    | ok place =>
      simp only [hd, bind, Except.bind] at hm
      split at hm
      · cases hm
      split at hm
      · cases hm
      split at hm
      · cases hm
      split at hm
      · cases hm
      next hnone =>
      cases hm
      refine ⟨rfl, fun q hq => Tree.get?_put_of_ne _ _ ?_⟩
      rintro rfl
      exact hq hnone

theorem settle_host (h : Host) (p : Path) (c : Cause) : (h.settle p c).2 = h := by
  unfold settle
  split <;> rfl

theorem extends_makeUpTo (levels : Nat) (p : Path) (h : Host) :
    Extends h (makeUpTo levels p h).2 := by
  induction levels generalizing p with
  | zero =>
    unfold makeUpTo
    split
    · next hm => exact extends_makeOne hm
    · exact .refl h
    · rw [settle_host]
      exact .refl h
  | succ levels ih =>
    unfold makeUpTo
    split
    · next hm => exact extends_makeOne hm
    · have hup := ih p.parent
      dsimp only
      split
      · next hp => rwa [hp] at hup
      · next hp =>
        rw [hp] at hup
        split
        · next hm => exact hup.trans (extends_makeOne hm)
        · exact hup
        · rw [settle_host]
          exact hup
    · rw [settle_host]
      exact .refl h

/-- Making a directory keeps all that is there. -/
theorem extends_makeDirectory (h : Host) (p : Path) : Extends h (h.makeDirectory p).2 := by
  unfold makeDirectory
  split
  · exact .refl h
  · exact extends_makeUpTo ..

theorem shrinks_removeEmpty (hm : h.removeEmpty p = .ok h') : Shrinks h h' := by
  unfold removeEmpty at hm
  split at hm
  · cases hm
  · next above name _ =>
    cases hd : h.directory above with
    | error c => simp [hd, bind, Except.bind] at hm
    | ok place =>
      simp only [hd, bind, Except.bind] at hm
      split at hm
      · cases hm
      split at hm
      · cases hm
      · split at hm
        · cases hm
          exact shrinks_erase ..
        · cases hm
      · cases hm

theorem shrinks_removeTree (h : Host) (p : Path) : Shrinks h (h.removeTree p).2 := by
  rw [removeTree_eq]
  split
  · exact .refl h
  · exact .refl h
  · exact .refl h
  · dsimp only
    split
    · next hm => exact (shrinks_eraseBelow h _).trans (shrinks_removeEmpty hm)
    · exact shrinks_eraseBelow h _

theorem shrinks_unlink (h : Host) (p : Path) : Shrinks h (h.unlink p).2 := by
  rw [unlink_eq]
  split
  · exact .refl h
  · split
    · exact .refl h
    · exact .refl h
    · exact shrinks_erase ..

theorem shrinks_discard (h : Host) (d : Path) : Shrinks h (h.discard d).2 := by
  rw [discard_eq]
  split
  · exact .refl h
  · exact shrinks_removeTree ..
  · exact shrinks_unlink ..

end FatInstall.Host
