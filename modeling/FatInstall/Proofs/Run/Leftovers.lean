import FatInstall.Proofs.Host.Removal
import FatInstall.Proofs.Run.Courses

/-!
# What a run leaves on its host

An update makes its scratch directory and removes what is there in the end, whatever that is. When
no started program touches the host, the host afterwards is the one before, the one with the
scratch directory made, or the one with it removed again.

* `Host.clearing`: what the host says to the removal of the scratch directory.
* `Host.aftermath`: the host after the scratch directory was made and removed.
* `Course.host`: the hosts that an update can leave.
* `Course.host_of_allFail`: the host that it leaves when every command fails.
-/

namespace FatInstall

namespace Host

/-- What the host says when what the path leads to is to be removed, if it leads to anything. -/
def clearing (h : Host) (d : Path) : Except Refusal Unit :=
  match h.doesExist d with
  | .error why => .error why
  | .ok false => .ok ()
  | .ok true => (h.discard d).1

/-- The host after what the path leads to was removed, if it leads to anything. -/
def tidied (h : Host) (d : Path) : Host :=
  match h.doesExist d with
  | .ok true => (h.discard d).2
  | _ => h

/-- The host after a directory was made and what is there removed. -/
def aftermath (h : Host) (d : Path) : Host := (h.makeDirectory d).2.tidied d

section

variable {h : Host} {p d : Path}

theorem shrinks_tidied (h : Host) (d : Path) : Shrinks h (h.tidied d) := by
  unfold tidied
  split
  · exact shrinks_discard ..
  · exact .refl h

theorem clearing_blank (logs : List Nat) (h : Host) (d : Path) :
    (h.blank logs).clearing d = h.clearing d := by
  simp only [clearing, doesExist_blank, discard_blank]

/-- The host refuses to remove only what cannot be removed. -/
theorem clearing_eq_ok_iff (hu : unspeakable? d = none) :
    h.clearing d = .ok () ↔ h.IsClearable d := by
  unfold clearing IsClearable
  rw [discard_eq]
  unfold doesExist isDirectory look
  rcases hn : h.node true d with c | n
  · rcases node_endsWalk hn with rfl | rfl | rfl | rfl <;> simp [hu, Except.map]
  · cases n with
    | directory => simp [hu, Except.map, removeTree_eq_ok_iff]
    | _ => simp [hu, Except.map, unlink_of_node hn]

theorem tidied_blank (logs : List Nat) (h : Host) (d : Path) :
    (h.blank logs).tidied d = (h.tidied d).blank logs := by
  simp only [tidied, doesExist_blank, discard_blank]
  split <;> rfl

theorem aftermath_blank (logs : List Nat) (h : Host) (d : Path) :
    (h.blank logs).aftermath d = (h.aftermath d).blank logs := by
  rw [aftermath, makeDirectory_blank, tidied_blank]
  rfl

/-- The aftermath has the same places with and without logs. -/
theorem aftermath_blank_get? (logs : List Nat) (h : Host) (d : Path) (q : Place) :
    ((h.blank logs).aftermath d).tree.get? q = none ↔ (h.aftermath d).tree.get? q = none := by
  simp [aftermath_blank]

/-- What was there is in the aftermath as it was, if at all. -/
theorem aftermath_get? (h : Host) (d : Path) {q : Place} (hq : h.tree.get? q ≠ none) :
    (h.aftermath d).tree.get? q = none ∨ (h.aftermath d).tree.get? q = h.tree.get? q := by
  rw [← (extends_makeDirectory h d).get? q hq]
  exact (shrinks_tidied ..).get? q

theorem aftermath_here (h : Host) (d : Path) : (h.aftermath d).here = h.here :=
  (shrinks_tidied ..).here.trans (extends_makeDirectory h d).here

theorem isBySystem_of_look {why : Refusal} (hl : h.look p = .error why) :
    why.isBySystem = true := by
  unfold look at hl
  split at hl
  · cases hl
  · split at hl <;> cases hl
    rfl

theorem isBySystem_of_settle {c : Cause} {why : Refusal} (hs : (h.settle p c).1 = .error why) :
    why.isBySystem = true := by
  unfold settle isDirectory at hs
  cases hl : h.look p with
  | error r =>
    rw [hl] at hs
    cases hs
    exact isBySystem_of_look hl
  | ok n =>
    rw [hl] at hs
    rcases n with _ | _ | _ | _ | _ <;> cases hs <;> rfl

theorem isBySystem_of_makeUpTo {levels : Nat} {why : Refusal}
    (hm : (makeUpTo levels p h).1 = .error why) : why.isBySystem = true := by
  induction levels generalizing p with
  | zero =>
    unfold makeUpTo at hm
    split at hm
    · cases hm
    · cases hm
      rfl
    · exact isBySystem_of_settle hm
  | succ levels ih =>
    unfold makeUpTo at hm
    split at hm
    · cases hm
    · dsimp only at hm
      split at hm
      · next hp =>
        cases hm
        exact ih (p := p.parent) (by rw [hp])
      · split at hm
        · cases hm
        · cases hm
          rfl
        · exact isBySystem_of_settle hm
    · exact isBySystem_of_settle hm

/-- A directory that cannot even be asked for leads to nothing. -/
theorem tidied_of_unspeakable {why : Refusal} (hm : (h.makeDirectory d).1 = .error why)
    (hw : why.isBySystem = false) (h' : Host) : h'.tidied d = h' := by
  unfold makeDirectory at hm
  cases hu : unspeakable? d with
  | none =>
    rw [hu] at hm
    rw [isBySystem_of_makeUpTo hm] at hw
    cases hw
  | some r => simp [tidied, doesExist, look, hu, Except.map]

end

end Host

/-! ## Hosts that are left -/

namespace Job

variable {j : Job} {h h' : Host} {acts : List Event}

theorem Removal.host {res : Except Failure Bool} (hr : j.Removal Still h acts res h') :
    h' = h ∨ h' = h.tidied j.mountDir := by
  cases hr with
  | unseen _ | absent _ => exact .inl rfl
  | broken _ ht _ | mounted _ ht _ | unclear _ ht _ _ _ => exact .inl ht
  | removed hd ht _ _ _ =>
    cases ht
    exact .inr (by simp [Host.tidied, hd])

theorem Release.host {strict : Bool} {res : Except Failure Unit}
    (hr : j.Release Still strict h acts res h') : h' = h ∨ h' = h.tidied j.mountDir := by
  cases hr with
  | broken ht _ | kept ht _ _ => exact .inl ht
  | unsynced ht _ ht' _ =>
    cases ht
    exact .inl ht'
  | freed ht _ ht' _ hrem =>
    cases ht
    cases ht'
    exact hrem.host

theorem Copying.host {res : Except Failure Unit} (hc : j.Copying Still h acts res h') :
    h' = h := by
  cases hc with
  | unmade ht _ => exact ht
  | uncopied ht _ ht' _ =>
    cases ht
    exact ht'
  | copied ht _ ht' _ ht'' =>
    cases ht
    cases ht'
    exact ht''

theorem MountedCourse.host {res : Except Failure Placement}
    (hm : j.MountedCourse Still h acts res h') : h' = h ∨ h' = h.tidied j.mountDir := by
  cases hm with
  | uncopied hc hr | unreleased hc hr | done hc hr =>
    cases hc.host
    exact hr.host
  | broken hc _ => exact .inl hc.host

theorem Making.host {dirs : List Text} {res : Except Failure Unit}
    (hm : j.Making Still dirs h acts res h') : h' = h := by
  induction hm with
  | done => rfl
  | broken ht _ => exact ht
  | next ht _ _ ih => exact ih.trans ht

theorem OfflineCourse.host {res : Except Failure Placement}
    (ho : j.OfflineCourse Still h acts res h') : h' = h ∨ h' = h.tidied j.mountDir := by
  cases ho with
  | broken ht _ => exact .inl ht
  | unremoved ht _ hr | mounted ht _ hr =>
    cases ht
    exact hr.host
  | unmade ht _ hr hm =>
    cases ht
    cases hm.host
    exact hr.host
  | uncopied ht _ hr hm ht' _ | done ht _ hr hm ht' _ =>
    cases ht
    cases hm.host
    cases ht'
    exact hr.host

theorem RouteCourse.host {route : Route} {res : Except Failure Placement}
    (hr : j.RouteCourse Still route h acts res h') : h' = h ∨ h' = h.tidied j.mountDir := by
  cases route with
  | mounted => exact MountedCourse.host hr
  | offline => exact OfflineCourse.host hr

theorem Selection.host {res : Except Failure Route} (hs : j.Selection Still h acts res h') :
    h' = (h.makeDirectory j.mountDir).2 := by
  cases hs with
  | unspeakable _ _ | refused _ _ => rfl
  | broken _ ht _ | unmounted _ ht _ _ => exact ht
  | unchecked _ ht _ ht' _ | inactive _ ht _ ht' _ _ | active _ ht _ ht' _ => exact ht'.trans ht

end Job

section

variable {source image : Path} {settings : Settings} {tools : Option Tools} {j : Job}
  {h h' : Host} {acts : List Event} {res : Except Failure Placement}

/-- An update leaves the host as it was, with the scratch directory made, or with the scratch
directory made and removed. -/
theorem Course.host (hi : settings.imagePath = .ok image)
    (hj : settings.job source image tools = .ok j)
    (hc : Course Still source settings tools h acts res h') :
    h' = h ∨ h' = (h.makeDirectory j.mountDir).2 ∨ h' = h.aftermath j.mountDir := by
  cases hc with
  | unselected hi' _ _ hj' hs =>
    cases hi.symm.trans hi'
    cases hj.symm.trans hj'
    exact .inr (.inl hs.host)
  | selected hi' _ _ hj' hs hr =>
    cases hi.symm.trans hi'
    cases hj.symm.trans hj'
    cases hs.host
    exact .inr hr.host
  | _ => exact .inl rfl

end

/-! ## When every command fails -/

/-- Did every command of the trace fail? -/
def AllFail (acts : List Event) : Prop := ∀ st r, .started st r ∈ acts → r.verdict = .ok 1

theorem AllFail.mono {xs acts : List Event} (h : AllFail acts) (hs : xs ⊆ acts) : AllFail xs :=
  fun st r hm => h st r (hs hm)

namespace Job

variable {j : Job} {h h' : Host} {acts : List Event}

theorem Removal.host_of_allFail {res : Except Failure Bool} (hr : j.Removal Still h acts res h')
    (hf : AllFail acts) : h' = h.tidied j.mountDir := by
  cases hr with
  | unseen hd | absent hd => simp [Host.tidied, hd]
  | broken _ _ hv | mounted _ _ hv =>
    rw [hf _ _ (.tail _ (.head _))] at hv
    cases hv
  | unclear hd ht _ _ hdir =>
    cases ht
    simp [Host.tidied, hd, Host.discard_eq, hdir]
  | removed hd ht _ _ _ =>
    cases ht
    simp [Host.tidied, hd]

theorem OfflineCourse.host_of_allFail {res : Except Failure Placement}
    (ho : j.OfflineCourse Still h acts res h') (hf : AllFail acts) :
    h' = h.tidied j.mountDir := by
  cases ho with
  | broken _ hv =>
    rw [hf _ _ (.tail _ (.head _))] at hv
    cases hv
  | unremoved ht _ hr | mounted ht _ hr =>
    cases ht
    exact hr.host_of_allFail (hf.mono fun _ hm => .tail _ (.tail _ hm))
  | unmade ht _ hr hm =>
    cases ht
    cases hm.host
    exact hr.host_of_allFail
      (hf.mono fun _ hm => .tail _ (.tail _ (List.mem_append_left _ hm)))
  | uncopied ht _ hr hm ht' _ | done ht _ hr hm ht' _ =>
    cases ht
    cases hm.host
    cases ht'
    exact hr.host_of_allFail
      (hf.mono fun _ hm => .tail _ (.tail _ (List.mem_append_left _ hm)))

/-- When the mount fails, the offline way is taken, unless the scratch directory cannot even be
asked for. -/
theorem Selection.offline_of_allFail {res : Except Failure Route}
    (hs : j.Selection Still h acts res h') (hf : AllFail acts) :
    res = .ok .offline ∨
      ∃ f, res = .error f ∧ h'.tidied j.mountDir = h' := by
  cases hs with
  | @unspeakable why hm hw => exact .inr ⟨_, rfl, Host.tidied_of_unspeakable hm hw _⟩
  | refused _ _ | unmounted _ _ _ _ => exact .inl rfl
  | broken _ _ hv | unchecked _ _ hv _ _ | inactive _ _ hv _ _ _ | active _ _ hv _ _ =>
    rw [hf _ _ (.tail _ (.head _))] at hv
    cases hv

end Job

/-- An update of existing inputs leaves the aftermath when every command fails. -/
theorem Course.host_of_allFail {source image : Path} {settings : Settings} {tools : Option Tools}
    {j : Job} {h h' : Host} {acts : List Event} {res : Except Failure Placement}
    (hi : settings.imagePath = .ok image) (hj : settings.job source image tools = .ok j)
    (hs : h.isFile source = .ok true) (hs' : h.isFile image = .ok true)
    (hc : Course Still source settings tools h acts res h') (hf : AllFail acts) :
    h' = h.aftermath j.mountDir := by
  rcases hc.of_inputs hi hs hs' hj with ⟨xs, f, rfl, -, hsel⟩ | ⟨route, xs, ys, m, rfl, hsel, hr⟩
  · rcases hsel.offline_of_allFail (hf.mono (List.subset_cons_self _ _)) with hres | ⟨f, -, ht⟩
    · cases hres
    · rw [Host.aftermath, ← hsel.host, ht]
  · rcases hsel.offline_of_allFail
      (hf.mono fun _ hm => .tail _ (List.mem_append_left _ hm)) with hres | ⟨f, hres, -⟩
    · cases hres
      rw [Host.aftermath, ← hsel.host]
      exact Job.OfflineCourse.host_of_allFail hr
        (hf.mono fun _ hm => .tail _ (List.mem_append_right _ hm))
    · cases hres

end FatInstall
