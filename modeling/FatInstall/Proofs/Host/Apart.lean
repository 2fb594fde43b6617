import FatInstall.Proofs.Host.Removal

/-!
# Places apart from what is removed

What goes when a path is removed is the entry that the path names, or the directory that it leads
to, with what is below. A place that is not there is apart from the path: it stays, and it is still
apart from the path on the host that is left.

* `IsWithin`: the places at or below what a path names or leads to.
* `get?_discard`: a removal loses only such places.
* `locate_of_lost`: a path leads where it led before, or into what was lost.
* `IsApart.discard`: places that are apart from a path stay so when it is removed.
-/

namespace FatInstall.Host

/-! ## What a removal loses -/

/-- Is the place at or below the one that the path names, or that it leads to? -/
def IsWithin (h : Host) (d : Path) (q : Place) : Prop :=
  ∃ last place, h.locate last d = .ok place ∧ place <+: q

instance (h : Host) (d : Path) (q : Place) : Decidable (h.IsWithin d q) :=
  decidable_of_iff ([false, true].any fun last =>
      (h.locate last d).toOption.any fun place => decide (place <+: q)) <| by
    simp only [List.any_eq_true, Option.any_eq_true, decide_eq_true_eq]
    constructor
    · rintro ⟨last, -, place, hl, hle⟩
      cases hlast : h.locate last d with
      | error c => simp [hlast, Except.toOption] at hl
      | ok place' =>
        rw [hlast] at hl
        cases hl
        exact ⟨last, place, hlast, hle⟩
    · rintro ⟨last, place, hl, hle⟩
      exact ⟨last, by cases last <;> simp, place, by rw [hl]; rfl, hle⟩

variable {h h' h'' : Host} {d p : Path} {place q : Place}

theorem isWithin_blank (logs : List Nat) : (h.blank logs).IsWithin d q ↔ h.IsWithin d q := by
  simp [IsWithin]

theorem IsWithin.mono (hw : h.IsWithin d place) (hle : place <+: q) : h.IsWithin d q := by
  obtain ⟨last, top, hl, htop⟩ := hw
  exact ⟨last, top, hl, htop.trans hle⟩

/-- Is the entry the same, or lost from within the path? -/
def SameOrLost (h : Host) (d : Path) (t : Tree) (q : Place) : Prop :=
  t.get? q = h.tree.get? q ∨ t.get? q = none ∧ h.IsWithin d q

theorem sameOrLost_erase (hl : h.locate false d = .ok place) {t : Tree}
    (ht : h.SameOrLost d t q) : h.SameOrLost d (t.erase place) q := by
  by_cases hq : place <+: q
  · have hwithin : h.IsWithin d q := ⟨false, place, hl, hq⟩
    rcases (shrinks_erase { h with tree := t } place).get? q with hnone | hsame
    · exact .inr ⟨hnone, hwithin⟩
    · exact ht.imp hsame.trans fun hlost => ⟨hsame.trans hlost.1, hwithin⟩
  · have hroot : place ≠ [] := fun he => hq (he ▸ List.nil_prefix)
    have hne : q ≠ place := by
      rintro rfl
      exact hq (List.prefix_refl q)
    rwa [SameOrLost, Tree.get?_erase t hroot, if_neg hne]

theorem sameOrLost_eraseBelow (hl : h.locate true d = .ok place) (q : Place) :
    h.SameOrLost d (h.tree.eraseBelow place) q := by
  rw [SameOrLost, Tree.get?_eraseBelow]
  split
  · next hb => exact .inr ⟨rfl, true, place, hl, hb.1⟩
  · exact .inl rfl

/-- What is removed as an empty directory is the entry that the path named. -/
theorem tree_removeEmpty (hl : h.locate false d = .ok place) (he : Extends h' h)
    (hm : h'.removeEmpty d = .ok h'') : h''.tree = h'.tree.erase place := by
  unfold removeEmpty at hm
  split at hm
  · cases hm
  next above name hlast =>
  cases hd : h'.directory above with
  | error c => simp [hd, bind, Except.bind] at hm
  | ok dir =>
    simp only [hd, bind, Except.bind] at hm
    split at hm
    · cases hm
    next hn =>
    rw [place_of_splitLast hlast hn (directory_of_extends he hd) hl]
    split at hm
    · cases hm
    · split at hm <;> cases hm
      rfl
    · cases hm

/-- A removal loses only what is within the path. -/
theorem sameOrLost_discard (h : Host) (d : Path) (q : Place) :
    h.SameOrLost d (h.discard d).2.tree q := by
  rw [discard_eq]
  split
  · exact .inl rfl
  · rw [removeTree_eq]
    split
    · exact .inl rfl
    · exact .inl rfl
    · exact .inl rfl
    next n place hno hnode hdir =>
    have hlost := sameOrLost_eraseBelow (directory_eq_ok.1 hdir).1 q
    obtain ⟨own, hown⟩ : ∃ own, h.locate false d = .ok own := by
      cases hl : h.locate false d with
      | ok own => exact ⟨own, rfl⟩
      | error c => simp [node, hl, bind, Except.bind] at hnode
    dsimp only
    split
    · next hm =>
      rw [tree_removeEmpty hown (extends_of_emptied h place) hm]
      exact sameOrLost_erase hown hlost
    · exact hlost
  · rw [unlink_eq]
    split
    · exact .inl rfl
    next place hl =>
    split
    · exact .inl rfl
    · exact .inl rfl
    · exact sameOrLost_erase hl (.inl rfl)

/-! ## Paths on the host that is left -/

section

variable {t t' : Tree} {P : Place → Prop} {f f' : Follow (Except Cause Place)} {last : Bool}
  {here : Place} {names : List Text} {links : Nat}

theorem walkNames_of_lost (ht : ∀ q, t'.get? q = t.get? q ∨ t'.get? q = none ∧ P q)
    (hf : ∀ target here rest, f' target here rest = .ok place →
      f target here rest = .ok place ∨ P place)
    (hw : walkNames t' last f' here names = .ok place) :
    walkNames t last f here names = .ok place ∨ P place := by
  induction names generalizing here with
  | nil => exact .inl hw
  | cons name rest ih =>
    by_cases hn : name = Path.parentName
    · simp only [walkNames, hn, if_true] at hw ⊢
      exact ih hw
    by_cases hs : maxName < name.byteSize
    · simp only [walkNames, hn, hs, if_true, if_false] at hw
      cases hw
    simp only [walkNames, hn, hs, if_false] at hw ⊢
    rcases ht (here ++ [name]) with hsame | ⟨hnone, hP⟩
    · rw [hsame] at hw
      cases hg : t.get? (here ++ [name]) with
      | none =>
        rw [hg] at hw
        exact .inl hw
      | some n =>
        rw [hg] at hw
        cases n with
        | directory => exact ih hw
        | link target =>
          by_cases hr : rest = [] ∧ last = false
          · simp only [hr, and_self, if_true] at hw ⊢
            exact .inl hw
          · simp only [hr, if_false] at hw ⊢
            exact hf target here rest hw
        | _ => exact .inl hw
    · -- the walk can only end where something was lost
      rw [hnone] at hw
      dsimp only at hw
      split at hw <;> cases hw
      exact .inr hP

/-- Where something was lost, a walk comes to where it came before, or to what was lost. -/
theorem walk_of_lost (ht : ∀ q, t'.get? q = t.get? q ∨ t'.get? q = none ∧ P q)
    (hw : walk t' last links here names = .ok place) :
    walk t last links here names = .ok place ∨ P place := by
  induction links generalizing here names with
  | zero => exact walkNames_of_lost ht (fun _ _ _ hc => by cases hc) hw
  | succ links ih =>
    refine walkNames_of_lost ht (fun target here rest hf => ?_) hw
    obtain ⟨hw, hd⟩ := followed_eq_ok.1 hf
    refine (ih hw).imp_left fun hw => followed_eq_ok.2 ⟨hw, fun hc => ?_⟩
    rcases ht place with hsame | ⟨hnone, -⟩
    · exact hsame ▸ hd hc
    · cases hnone.symm.trans (hd hc)

end

/-- A path leads where it led before the loss, or into what was lost. -/
theorem locate_of_lost {last : Bool} (hhere : h'.here = h.here)
    (ht : ∀ q, h.SameOrLost d h'.tree q) (hl : h'.locate last p = .ok place) :
    h.locate last p = .ok place ∨ h.IsWithin d place := by
  obtain ⟨hm, hs, hw⟩ := walk_of_locate hl
  rw [foothold_congr hhere] at hs
  rw [start_congr hhere] at hw
  have hs' : h.tree.get? (h.foothold p) ≠ none := by
    rcases ht (h.foothold p) with hsame | ⟨hnone, -⟩
    · rwa [← hsame]
    · exact (hs hnone).elim
  rw [locate, if_neg hm, if_neg hs']
  exact walk_of_lost ht hw

/-! ## Places that stay -/

/-- Are all the places apart from what the path names and leads to? -/
def IsApart (h : Host) (d : Path) (places : List Place) : Prop :=
  ∀ q ∈ places, ¬h.IsWithin d q

instance (h : Host) (d : Path) (places : List Place) : Decidable (h.IsApart d places) :=
  inferInstanceAs (Decidable (∀ q ∈ places, ¬h.IsWithin d q))

variable {places : List Place}

theorem IsApart.get?_discard (ha : h.IsApart d places) (hq : q ∈ places) :
    (h.discard d).2.tree.get? q = h.tree.get? q :=
  (sameOrLost_discard h d q).resolve_right fun hlost => ha q hq hlost.2

/-- Places that are apart from a path are apart from it when it was removed. -/
theorem IsApart.discard (ha : h.IsApart d places) : (h.discard d).2.IsApart d places := by
  rintro q hq ⟨last, place, hl, hle⟩
  have hhere : (h.discard d).2.here = h.here := (shrinks_discard h d).here
  refine (locate_of_lost hhere (sameOrLost_discard h d) hl).elim (fun hl => ?_) fun hw => ?_
  · exact ha q hq ⟨last, place, hl, hle⟩
  · exact ha q hq (hw.mono hle)

end FatInstall.Host
