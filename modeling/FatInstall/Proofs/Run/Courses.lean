import FatInstall.Proofs.Host.Entries
import FatInstall.Proofs.Run.Calls
import FatInstall.Update

/-!
# Courses of an update

What an update that is not dry does, part by part: each part has a description with one case for
each way that it can go, and every run of the part is one that the description holds of.

* `Removal`, `Release`, `Copying`, `Making`, `MountedCourse`, `OfflineCourse`, `Selection`,
  `Course`: the descriptions, from the removal of the scratch directory to the whole update.
* `obeys_removeScratchDir`, …, `obeys_update`: the runs are as described.

A case of a description gives the commands that were started with their replies, the looks at the
scratch directory and its removal, the lines on standard output, the result, and the host
afterwards. `touch` is how a started program may change the host.
-/

namespace FatInstall

/-- A line on standard output. -/
def Event.line (text : Text) : Event := .printed (text ++ ("\n" : Text))

namespace Job

/-- Does the job change anything? -/
structure IsLive (j : Job) : Prop where
  job : j.dryRun = false
  tools : j.tools.dryRun = false

/-- The job's tools start the command and get the reply. -/
def event (j : Job) (c : Call) (r : Reply) : Event := .started (j.tools.start c) r

/-- What a failed copy into the image is reported as. -/
def copyFailure (j : Job) : Failure → Failure
  | .command why => .update (.offlineCopyFailed j.source j.image why)
  | f => f

/-! ## Descriptions -/

section

variable (touch : Host → Host → Prop) (j : Job)

/-- The scratch directory is removed in the given way, unless something is mounted there. -/
inductive RemovalBy (how : Host.TreeRemoval Failure) (h : Host) : Conduct Bool
  | unseen {why : Host.Refusal} : h.doesExist j.mountDir = .error why →
      RemovalBy how h [] (.error (.refused why)) h
  | absent : h.doesExist j.mountDir = .ok false →
      RemovalBy how h [.sought j.mountDir false] (.ok true) h
  | broken {r : Reply} {f : Failure} {m : Host} : h.doesExist j.mountDir = .ok true →
      touch h m → r.verdict = .error f →
      RemovalBy how h [.sought j.mountDir true, j.event (.mountpoint j.mountDir) r] (.error f) m
  | mounted {r : Reply} {m : Host} : h.doesExist j.mountDir = .ok true →
      touch h m → r.verdict = .ok 0 →
      RemovalBy how h [.sought j.mountDir true, j.event (.mountpoint j.mountDir) r] (.ok false) m
  | unclear {r : Reply} {n : Int} {why : Host.Refusal} {m : Host} :
      h.doesExist j.mountDir = .ok true → touch h m → r.verdict = .ok n → n ≠ 0 →
      m.isDirectory j.mountDir = .error why →
      RemovalBy how h [.sought j.mountDir true, j.event (.mountpoint j.mountDir) r]
        (.error (.refused why)) m
  | removed {r : Reply} {n : Int} {b : Bool} {m : Host} :
      h.doesExist j.mountDir = .ok true → touch h m → r.verdict = .ok n → n ≠ 0 →
      m.isDirectory j.mountDir = .ok b →
      RemovalBy how h
        [.sought j.mountDir true, j.event (.mountpoint j.mountDir) r, .removing j.mountDir]
        ((m.discardBy how j.mountDir).1.map fun _ => true) (m.discardBy how j.mountDir).2

/-- The scratch directory is removed on a host where every entry may be removed. -/
abbrev Removal : Host → Conduct Bool := RemovalBy touch j (.plain .refused)

/-- How a release ends after an attempt to remove the scratch directory. -/
def released (strict : Bool) : Except Failure Bool → Except Failure Unit
  | .error f => .error f
  | .ok removed =>
    if !removed && strict then .error (.update (.mountedAfterUnmount j.mountDir)) else .ok ()

/-- The image is unmounted, and the scratch directory removed. -/
inductive Release (strict : Bool) (h : Host) : Conduct Unit
  | broken {r : Reply} {f : Failure} {m : Host} : touch h m → r.verdict = .error f →
      Release strict h [j.event (.umount j.mountDir) r] (.error f) m
  | kept {r : Reply} {n : Int} {m : Host} : touch h m → r.verdict = .ok n → n ≠ 0 →
      Release strict h [j.event (.umount j.mountDir) r]
        (if strict then .error (.update (.unmountFailed j.mountDir j.image)) else .ok ()) m
  | unsynced {r r' : Reply} {f : Failure} {m h' : Host} : touch h m → r.verdict = .ok 0 →
      touch m h' → r'.verdict = .error f →
      Release strict h [j.event (.umount j.mountDir) r, j.event .sync r'] (.error f) h'
  | freed {r r' : Reply} {n : Int} {acts : List Event} {res : Except Failure Bool}
      {m m' h' : Host} : touch h m → r.verdict = .ok 0 → touch m m' → r'.verdict = .ok n →
      Removal touch j m' acts res h' →
      Release strict h (j.event (.umount j.mountDir) r :: j.event .sync r' :: acts)
        (j.released strict res) h'

/-- The file is copied into the mounted image. -/
inductive Copying (h : Host) : Conduct Unit
  | unmade {r : Reply} {f : Failure} {m : Host} : touch h m →
      r.checked (j.tools.argv (.mkdir j.mountedDestDir)) = .error f →
      Copying h [j.event (.mkdir j.mountedDestDir) r] (.error f) m
  | uncopied {r r' : Reply} {f : Failure} {m h' : Host} : touch h m → r.verdict = .ok 0 →
      touch m h' → r'.checked (j.tools.argv (.cp j.source j.mountedDestDir)) = .error f →
      Copying h [j.event (.mkdir j.mountedDestDir) r, j.event (.cp j.source j.mountedDestDir) r']
        (.error f) h'
  | copied {r r' r'' : Reply} {m m' h' : Host} : touch h m → r.verdict = .ok 0 →
      touch m m' → r'.verdict = .ok 0 → touch m' h' →
      Copying h [j.event (.mkdir j.mountedDestDir) r, j.event (.cp j.source j.mountedDestDir) r',
        j.event .sync r''] r''.ended h'

/-- The job is done through a mount. -/
inductive MountedCourse (h : Host) : Conduct Placement
  | uncopied {xs ys : List Event} {why : CommandFault} {res : Except Failure Unit} {m h' : Host} :
      Copying touch j h xs (.error (.command why)) m → Release touch j false m ys res h' →
      MountedCourse h (xs ++ ys)
        (res.bind fun _ => .error (.update (.mountedCopyFailed j.source j.image why))) h'
  | broken {xs : List Event} {f : Failure} {m : Host} : Copying touch j h xs (.error f) m →
      (∀ why, f ≠ .command why) → MountedCourse h xs (.error f) m
  | unreleased {xs ys : List Event} {f : Failure} {m h' : Host} :
      Copying touch j h xs (.ok ()) m → Release touch j true m ys (.error f) h' →
      MountedCourse h (xs ++ ys) (.error f) h'
  | done {xs ys : List Event} {m h' : Host} :
      Copying touch j h xs (.ok ()) m → Release touch j true m ys (.ok ()) h' →
      MountedCourse h (xs ++ (ys ++ [.line "Successfully copied using mount"]))
        (.ok (j.placement .mounted)) h'

/-- Directories inside the image are made one after the other. -/
inductive Making : List Text → Host → Conduct Unit
  | done {h : Host} : Making [] h [] (.ok ()) h
  | broken {dir : Text} {dirs : List Text} {r : Reply} {f : Failure} {h m : Host} : touch h m →
      r.verdict = .error f → Making (dir :: dirs) h [j.event (.mmd j.image dir) r] (.error f) m
  | next {dir : Text} {dirs : List Text} {r : Reply} {n : Int} {acts : List Event}
      {res : Except Failure Unit} {h m h' : Host} : touch h m → r.verdict = .ok n →
      Making dirs m acts res h' →
      Making (dir :: dirs) h (j.event (.mmd j.image dir) r :: acts) res h'

/-- The job is done by editing the image. -/
inductive OfflineCourse (h : Host) : Conduct Placement
  | broken {r : Reply} {f : Failure} {m : Host} : touch h m → r.verdict = .error f →
      OfflineCourse h [.line "Mount failed, using mtools instead...",
        j.event (.umount j.mountDir) r] (.error f) m
  | unremoved {r : Reply} {n : Int} {xs : List Event} {f : Failure} {m h' : Host} : touch h m →
      r.verdict = .ok n → Removal touch j m xs (.error f) h' →
      OfflineCourse h (.line "Mount failed, using mtools instead..." ::
        j.event (.umount j.mountDir) r :: xs) (.error f) h'
  | mounted {r : Reply} {n : Int} {xs : List Event} {m h' : Host} : touch h m →
      r.verdict = .ok n → Removal touch j m xs (.ok false) h' →
      OfflineCourse h (.line "Mount failed, using mtools instead..." ::
        j.event (.umount j.mountDir) r :: xs)
        (.error (.update (.mountedBeforeEdit j.mountDir j.image))) h'
  | unmade {r : Reply} {n : Int} {xs ys : List Event} {f : Failure} {m m' h' : Host} : touch h m →
      r.verdict = .ok n → Removal touch j m xs (.ok true) m' →
      Making touch j (Offline.levels j.destDir) m' ys (.error f) h' →
      OfflineCourse h (.line "Mount failed, using mtools instead..." ::
        j.event (.umount j.mountDir) r :: (xs ++ ys)) (.error f) h'
  | uncopied {r r' : Reply} {n : Int} {xs ys : List Event} {f : Failure} {m m' m'' h' : Host} :
      touch h m → r.verdict = .ok n → Removal touch j m xs (.ok true) m' →
      Making touch j (Offline.levels j.destDir) m' ys (.ok ()) m'' → touch m'' h' →
      r'.checked (j.tools.argv (.mcopy j.image j.source j.destDir)) = .error f →
      OfflineCourse h (.line "Mount failed, using mtools instead..." ::
        j.event (.umount j.mountDir) r ::
          (xs ++ (ys ++ [j.event (.mcopy j.image j.source j.destDir) r'])))
        (.error (j.copyFailure f)) h'
  | done {r r' : Reply} {n : Int} {xs ys : List Event} {m m' m'' h' : Host} :
      touch h m → r.verdict = .ok n → Removal touch j m xs (.ok true) m' →
      Making touch j (Offline.levels j.destDir) m' ys (.ok ()) m'' → touch m'' h' →
      r'.verdict = .ok 0 →
      OfflineCourse h (.line "Mount failed, using mtools instead..." ::
        j.event (.umount j.mountDir) r ::
          (xs ++ (ys ++ [j.event (.mcopy j.image j.source j.destDir) r',
            .line "Successfully copied using mtools"])))
        (.ok (j.placement .offline)) h'

/-- The job is done in the given way. -/
def RouteCourse : Route → Host → Conduct Placement
  | .mounted => MountedCourse touch j
  | .offline => OfflineCourse touch j

/-- The way to take is found out by mounting the image. -/
inductive Selection (h : Host) : Conduct Route
  | unspeakable {why : Host.Refusal} : (h.makeDirectory j.mountDir).1 = .error why →
      why.isBySystem = false →
      Selection h [.making j.mountDir] (.error (.refused why)) (h.makeDirectory j.mountDir).2
  | refused {why : Host.Refusal} : (h.makeDirectory j.mountDir).1 = .error why →
      why.isBySystem = true →
      Selection h [.making j.mountDir] (.ok .offline) (h.makeDirectory j.mountDir).2
  | broken {r : Reply} {f : Failure} {m : Host} : (h.makeDirectory j.mountDir).1 = .ok () →
      touch (h.makeDirectory j.mountDir).2 m → r.verdict = .error f →
      Selection h [.making j.mountDir, j.event (.mount j.image j.mountDir) r] (.error f) m
  | unmounted {r : Reply} {n : Int} {m : Host} : (h.makeDirectory j.mountDir).1 = .ok () →
      touch (h.makeDirectory j.mountDir).2 m → r.verdict = .ok n → n ≠ 0 →
      Selection h [.making j.mountDir, j.event (.mount j.image j.mountDir) r] (.ok .offline) m
  | unchecked {r r' : Reply} {f : Failure} {m h' : Host} :
      (h.makeDirectory j.mountDir).1 = .ok () → touch (h.makeDirectory j.mountDir).2 m →
      r.verdict = .ok 0 → touch m h' → r'.verdict = .error f →
      Selection h [.making j.mountDir, j.event (.mount j.image j.mountDir) r,
        j.event (.mountpoint j.mountDir) r'] (.error f) h'
  | inactive {r r' : Reply} {n : Int} {m h' : Host} : (h.makeDirectory j.mountDir).1 = .ok () →
      touch (h.makeDirectory j.mountDir).2 m → r.verdict = .ok 0 → touch m h' →
      r'.verdict = .ok n → n ≠ 0 →
      Selection h [.making j.mountDir, j.event (.mount j.image j.mountDir) r,
        j.event (.mountpoint j.mountDir) r'] (.ok .offline) h'
  | active {r r' : Reply} {m h' : Host} : (h.makeDirectory j.mountDir).1 = .ok () →
      touch (h.makeDirectory j.mountDir).2 m → r.verdict = .ok 0 → touch m h' →
      r'.verdict = .ok 0 →
      Selection h [.making j.mountDir, j.event (.mount j.image j.mountDir) r,
        j.event (.mountpoint j.mountDir) r'] (.ok .mounted) h'

end

end Job

/-- The line that an update begins with. -/
def greeting (source image : Path) : Event :=
  .line ("Write file '" ++ source.text ++ "' into " ++ image.text)

/-- An update: its inputs are checked, the way is found out, and the job is done. -/
inductive Course (touch : Host → Host → Prop) (source : Path) (settings : Settings)
    (tools : Option Tools) (h : Host) : Conduct Placement
  | unnamed {v : ValueFault} : settings.imagePath = .error v →
      Course touch source settings tools h [] (.error (.value v)) h
  | sourceUnseen {image : Path} {why : Host.Refusal} : settings.imagePath = .ok image →
      h.isFile source = .error why →
      Course touch source settings tools h [] (.error (.refused why)) h
  | sourceMissing {image : Path} : settings.imagePath = .ok image → h.isFile source = .ok false →
      Course touch source settings tools h [] (.error (.update (.sourceMissing source))) h
  | imageUnseen {image : Path} {why : Host.Refusal} : settings.imagePath = .ok image →
      h.isFile source = .ok true → h.isFile image = .error why →
      Course touch source settings tools h [] (.error (.refused why)) h
  | imageMissing {image : Path} : settings.imagePath = .ok image → h.isFile source = .ok true →
      h.isFile image = .ok false →
      Course touch source settings tools h [] (.error (.update (.imageMissing image))) h
  | unset {image : Path} {f : Failure} : settings.imagePath = .ok image →
      h.isFile source = .ok true → h.isFile image = .ok true →
      settings.job source image tools = .error f →
      Course touch source settings tools h [] (.error f) h
  | unselected {image : Path} {j : Job} {xs : List Event} {f : Failure} {h' : Host} :
      settings.imagePath = .ok image → h.isFile source = .ok true → h.isFile image = .ok true →
      settings.job source image tools = .ok j → j.Selection touch h xs (.error f) h' →
      Course touch source settings tools h (greeting source image :: xs) (.error f) h'
  | selected {image : Path} {j : Job} {route : Route} {xs ys : List Event}
      {res : Except Failure Placement} {m h' : Host} :
      settings.imagePath = .ok image → h.isFile source = .ok true → h.isFile image = .ok true →
      settings.job source image tools = .ok j → j.Selection touch h xs (.ok route) m →
      j.RouteCourse touch route m ys res h' →
      Course touch source settings tools h (greeting source image :: (xs ++ ys)) res h'

/-- With inputs and settings in order, an update finds out the way, and takes it unless that
fails. -/
theorem Course.of_inputs {touch : Host → Host → Prop} {source image : Path} {settings : Settings}
    {tools : Option Tools} {j : Job} {h h' : Host} {acts : List Event}
    {res : Except Failure Placement} (hi : settings.imagePath = .ok image)
    (hs : h.isFile source = .ok true) (hs' : h.isFile image = .ok true)
    (hj : settings.job source image tools = .ok j)
    (hc : Course touch source settings tools h acts res h') :
    (∃ xs f, acts = greeting source image :: xs ∧ res = .error f ∧
      j.Selection touch h xs (.error f) h') ∨
      ∃ route xs ys m, acts = greeting source image :: (xs ++ ys) ∧
        j.Selection touch h xs (.ok route) m ∧ j.RouteCourse touch route m ys res h' := by
  cases hc with
  | unnamed hi' => cases hi.symm.trans hi'
  | sourceUnseen _ hs₁ | sourceMissing _ hs₁ => cases hs.symm.trans hs₁
  | imageUnseen hi' _ hs₁ | imageMissing hi' _ hs₁ =>
    cases hi.symm.trans hi'
    cases hs'.symm.trans hs₁
  | unset hi' _ _ hj' =>
    cases hi.symm.trans hi'
    cases hj.symm.trans hj'
  | unselected hi' _ _ hj' hsel =>
    cases hi.symm.trans hi'
    cases hj.symm.trans hj'
    exact .inl ⟨_, _, rfl, rfl, hsel⟩
  | selected hi' _ _ hj' hsel hr =>
    cases hi.symm.trans hi'
    cases hj.symm.trans hj'
    exact .inr ⟨_, _, _, _, rfl, hsel, hr⟩

/-! ## Runs -/

theorem Reply.succeeded_eq_ok_true {r : Reply} : r.succeeded = .ok true ↔ r.verdict = .ok 0 := by
  rw [succeeded]
  cases r.verdict <;> simp [Except.map]

theorem Reply.succeeded_eq_ok_false {r : Reply} :
    r.succeeded = .ok false ↔ ∃ n, r.verdict = .ok n ∧ n ≠ 0 := by
  rw [succeeded]
  cases r.verdict <;> simp [Except.map]

theorem Reply.verdict_of_succeeded {r : Reply} {b : Bool} (h : r.succeeded = .ok b) :
    ∃ n, r.verdict = .ok n := by
  rw [succeeded] at h
  cases hv : r.verdict with
  | error f => rw [hv] at h; cases h
  | ok n => exact ⟨n, rfl⟩

theorem Reply.succeeded_eq_error {r : Reply} {f : Failure} :
    r.succeeded = .error f ↔ r.verdict = .error f := by
  rw [succeeded]
  cases r.verdict <;> simp [Except.map]

theorem Reply.ended_eq_ok {r : Reply} : r.ended = .ok () ↔ ∃ n, r.verdict = .ok n := by
  rw [ended]
  cases r.verdict <;> simp [Except.map]

theorem Reply.ended_eq_error {r : Reply} {f : Failure} :
    r.ended = .error f ↔ r.verdict = .error f := by
  rw [ended]
  cases r.verdict <;> simp [Except.map]

theorem Reply.verdict_of_checked {argv : List Text} {r : Reply} (h : r.checked argv = .ok ()) :
    r.verdict = .ok 0 := by
  rcases r.checked_cases argv with ⟨hr, -⟩ | ⟨why, -, -, -, hc⟩ | ⟨f, -, hc⟩
  · exact hr
  · cases hc.symm.trans h
  · cases hc.symm.trans h

namespace Job

open Run

variable {s : Scene} {j : Job} {h : Host}

theorem obeys_removeScratchDirBy (how : Host.TreeRemoval Failure) (hj : j.IsLive) :
    (j.removeScratchDirBy how).Obeys s h (j.RemovalBy s.touch how h) := by
  unfold removeScratchDirBy
  simp only [hj.job, Bool.false_eq_true, if_false]
  refine Obeys.bind (D := fun xs res m => m = h ∧ match res with
    | .error f => ∃ why, f = .refused why ∧ xs = [] ∧ h.doesExist j.mountDir = .error why
    | .ok b => xs = [.sought j.mountDir b] ∧ h.doesExist j.mountDir = .ok b)
    (obeys_seek (fun why hw => ⟨rfl, why, rfl, rfl, hw⟩) fun b hb => ⟨rfl, rfl, hb⟩) ?_ ?_
  · rintro xs f m ⟨rfl, why, rfl, rfl, hw⟩
    exact .unseen hw
  rintro xs found h ⟨rfl, rfl, hf⟩
  cases found with
  | false => exact obeys_pure (.absent hf)
  | true =>
    simp only [Bool.not_true, Bool.false_eq_true, if_false]
    refine Obeys.bind_asks (obeys_isMountpoint hj.tools _) ?_ ?_
    · intro r f m ht hr
      exact .broken hf ht (Reply.succeeded_eq_error.1 hr)
    · intro r b m ht hr
      cases b with
      | true =>
        exact Obeys.after_log (obeys_pure (.mounted hf ht (Reply.succeeded_eq_ok_true.1 hr)))
      | false =>
        obtain ⟨n, hn, hn0⟩ := Reply.succeeded_eq_ok_false.1 hr
        have hremoved : ∀ {d}, m.isDirectory j.mountDir = .ok d → j.RemovalBy s.touch how h
            [.sought j.mountDir true, j.event (.mountpoint j.mountDir) r, .removing j.mountDir]
            ((m.discardBy how j.mountDir).1.map fun _ => true) (m.discardBy how j.mountDir).2 :=
          fun hd => .removed hf ht hn hn0 hd
        simp only [Bool.false_eq_true, if_false]
        refine Obeys.bind (D := fun xs res h' => (∃ why, xs = [] ∧ res = .error (.refused why) ∧
            h' = m ∧ m.isDirectory j.mountDir = .error why) ∨
          ∃ d, xs = [.removing j.mountDir] ∧ res = (m.discardBy how j.mountDir).1 ∧
            h' = (m.discardBy how j.mountDir).2 ∧ m.isDirectory j.mountDir = .ok d)
          (obeys_discardBy (fun why hw => .inl ⟨why, rfl, rfl, rfl, hw⟩)
            fun d hd => .inr ⟨d, rfl, rfl, rfl, hd⟩) ?_ ?_
        · rintro xs f h' (⟨why, rfl, hf', rfl, hw⟩ | ⟨d, rfl, hres, rfl, hd⟩)
          · cases hf'
            exact .unclear hf ht hn hn0 hw
          · have hremoved := hremoved hd
            rwa [← hres] at hremoved
        · rintro xs _ h' (⟨why, -, hf', -, -⟩ | ⟨d, rfl, hres, rfl, hd⟩)
          · cases hf'
          · have hremoved := hremoved hd
            rw [← hres] at hremoved
            exact obeys_pure hremoved

theorem obeys_removeScratchDir (hj : j.IsLive) :
    j.removeScratchDir.Obeys s h (j.Removal s.touch h) :=
  obeys_removeScratchDirBy _ hj

theorem obeys_release (hj : j.IsLive) (strict : Bool) :
    (Mounted.release j strict).Obeys s h (j.Release s.touch strict h) := by
  unfold Mounted.release
  refine Obeys.bind_asks (obeys_unmount hj.tools _) ?_ ?_
  · intro r f m ht hr
    exact .broken ht (Reply.succeeded_eq_error.1 hr)
  · intro r b m ht hr
    cases b with
    | false =>
      obtain ⟨n, hn, hn0⟩ := Reply.succeeded_eq_ok_false.1 hr
      have hkept : j.Release s.touch strict h [j.event (.umount j.mountDir) r] _ m :=
        .kept ht hn hn0
      simp only [Bool.false_eq_true, if_false]
      split
      · next hs => exact obeys_fail (by rwa [if_pos hs] at hkept)
      · next hs => exact obeys_log (by rwa [if_neg hs] at hkept)
    | true =>
      have hr := Reply.succeeded_eq_ok_true.1 hr
      simp only [if_true]
      refine Obeys.bind_asks (obeys_sync hj.tools) ?_ ?_
      · intro r' f m' ht' hr'
        exact .unsynced ht hr ht' (Reply.ended_eq_error.1 hr')
      · intro r' _ m' ht' hr'
        obtain ⟨n, hn⟩ := Reply.ended_eq_ok.1 hr'
        refine Obeys.bind (obeys_removeScratchDir hj) ?_ ?_
        · intro xs f m'' hx
          exact .freed ht hr ht' hn hx
        · intro xs b m'' hx
          have hfreed : j.Release s.touch strict h _ (j.released strict (.ok b)) m'' :=
            .freed ht hr ht' hn hx
          simp only [released] at hfreed
          rw [← List.append_nil xs] at hfreed
          split
          · next hs => exact obeys_fail (by rwa [if_pos hs] at hfreed)
          · next hs => exact obeys_pure (by rwa [if_neg hs] at hfreed)

theorem obeys_copy (hj : j.IsLive) : (Mounted.copy j).Obeys s h (j.Copying s.touch h) := by
  unfold Mounted.copy
  refine Obeys.bind_asks (obeys_makeDirectory hj.tools _) ?_ ?_
  · intro r f m ht hr
    exact .unmade ht hr
  · intro r _ m ht hr
    have hr := Reply.verdict_of_checked hr
    refine Obeys.bind_asks (obeys_copyFile hj.tools _ _) ?_ ?_
    · intro r' f m' ht' hr'
      exact .uncopied ht hr ht' hr'
    · intro r' _ m' ht' hr'
      have hr' := Reply.verdict_of_checked hr'
      refine (obeys_sync hj.tools).mono ?_
      rintro acts res h' ⟨r'', ht'', rfl, rfl⟩
      exact .copied ht hr ht' hr' ht''

theorem obeys_mounted (hj : j.IsLive) : (Mounted.run j).Obeys s h (j.MountedCourse s.touch h) := by
  unfold Mounted.run
  refine Obeys.bind_attempt (obeys_copy hj) fun xs res m hx => ?_
  cases res with
  | error f =>
    cases f with
    | command why =>
      refine Obeys.bind (obeys_release hj false) ?_ ?_
      · intro ys f m' hy
        exact .uncopied hx hy
      · intro ys _ m' hy
        refine obeys_fail ?_
        rw [List.append_nil]
        exact .uncopied hx hy
    | _ =>
      refine obeys_fail ?_
      rw [List.append_nil]
      exact .broken hx (by rintro why ⟨⟩)
  | ok _ =>
    refine Obeys.bind (obeys_release hj true) ?_ ?_
    · intro ys f m' hy
      exact .unreleased hx hy
    · intro ys _ m' hy
      exact Obeys.after_log (Obeys.after_note rfl rfl (obeys_pure (.done hx hy)))

theorem obeys_makeLevels (hj : j.IsLive) (dirs : List Text) :
    (Offline.makeLevels j dirs).Obeys s h (j.Making s.touch dirs h) := by
  induction dirs generalizing h with
  | nil => exact obeys_pure .done
  | cons dir dirs ih =>
    unfold Offline.makeLevels
    refine Obeys.bind_asks (obeys_makeImageDirectory hj.tools _ _) ?_ ?_
    · intro r f m ht hr
      exact .broken ht (Reply.succeeded_eq_error.1 hr)
    · intro r b m ht hr
      obtain ⟨n, hn⟩ := Reply.verdict_of_succeeded hr
      exact Obeys.log_if (ih.mono fun ys res h' hy => .next ht hn hy)

theorem obeys_offline (hj : j.IsLive) : (Offline.run j).Obeys s h (j.OfflineCourse s.touch h) := by
  unfold Offline.run
  refine Obeys.after_note rfl rfl ?_
  refine Obeys.bind_asks (obeys_unmount hj.tools _) ?_ ?_
  · intro r f m ht hr
    exact .broken ht (Reply.succeeded_eq_error.1 hr)
  · intro r b m ht hr
    obtain ⟨n, hn⟩ := Reply.verdict_of_succeeded hr
    refine Obeys.log_if ?_
    refine Obeys.bind (obeys_removeScratchDir hj) ?_ ?_
    · intro xs f m' hx
      exact .unremoved ht hn hx
    · intro xs b m' hx
      cases b with
      | false =>
        refine obeys_fail ?_
        rw [List.append_nil]
        exact .mounted ht hn hx
      | true =>
        simp only [Bool.not_true, Bool.false_eq_true, if_false]
        refine Obeys.bind (obeys_makeLevels hj _) ?_ ?_
        · intro ys f m'' hy
          exact .unmade ht hn hx hy
        · intro ys _ m'' hy
          refine Obeys.bind_attempt (obeys_copyIntoImage hj.tools _ _ _) ?_
          rintro zs res h' ⟨r', ht', rfl, hr'⟩
          cases res with
          | error f =>
            have hun := OfflineCourse.uncopied ht hn hx hy ht' hr'.symm
            cases f <;> exact obeys_fail hun
          | ok _ =>
            exact Obeys.after_log (Obeys.after_note rfl rfl (obeys_pure
              (.done ht hn hx hy ht' (Reply.verdict_of_checked hr'.symm))))

/-- Trying to mount: a failure of the kind `mountUnavailable` is what makes the offline way the one
to take, and no other failure of the program's own comes of it. -/
def Probing (touch : Host → Host → Prop) (j : Job) (h : Host) : Conduct Unit := fun xs res m =>
  match res with
  | .ok () => j.Selection touch h xs (.ok .mounted) m
  | .error (.update fault) =>
    fault.kind = .mountUnavailable ∧ j.Selection touch h xs (.ok .offline) m
  | .error f => j.Selection touch h xs (.error f) m

theorem Probing.of_verdict {touch : Host → Host → Prop} {xs : List Event} {r : Reply} {f : Failure}
    {m : Host} (hr : r.verdict = .error f) (hs : j.Selection touch h xs (.error f) m) :
    Probing touch j h xs (.error f) m := by
  cases f with
  | update fault => exact (r.verdict_ne_update fault hr).elim
  | _ => exact hs

theorem obeys_createScratchDir (hj : j.IsLive) {C : Conduct Unit}
    (H : C [.making j.mountDir] ((h.makeDirectory j.mountDir).1.mapError .refused)
      (h.makeDirectory j.mountDir).2) :
    j.createScratchDir.Obeys s h C := by
  unfold createScratchDir
  simp only [hj.job, Bool.false_eq_true, if_false]
  exact obeys_make H

theorem obeys_probeMount (hj : j.IsLive) : j.probeMount.Obeys s h (Probing s.touch j h) := by
  unfold probeMount
  refine Obeys.bind_attempt (D := fun xs res m => xs = [.making j.mountDir] ∧
    res = (h.makeDirectory j.mountDir).1.mapError .refused ∧ m = (h.makeDirectory j.mountDir).2)
    (obeys_createScratchDir hj ⟨rfl, rfl, rfl⟩) ?_
  rintro xs res m ⟨rfl, rfl, rfl⟩
  cases hmade : (h.makeDirectory j.mountDir).1 with
  | error why =>
    simp only [mapError_error]
    split
    · next hw => exact obeys_fail ⟨rfl, .refused hmade hw⟩
    · next hw => exact obeys_fail (.unspeakable hmade (by simpa using hw))
  | ok _ =>
    refine Obeys.bind_asks (obeys_mount hj.tools _ _) ?_ ?_
    · intro r f m ht hr
      have hr := Reply.succeeded_eq_error.1 hr
      exact .of_verdict hr (.broken hmade ht hr)
    · intro r b m ht hr
      cases b with
      | false =>
        obtain ⟨n, hn, hn0⟩ := Reply.succeeded_eq_ok_false.1 hr
        exact obeys_fail ⟨rfl, .unmounted hmade ht hn hn0⟩
      | true =>
        have hr := Reply.succeeded_eq_ok_true.1 hr
        simp only [Bool.not_true, Bool.false_eq_true, if_false]
        refine Obeys.bind_asks (obeys_isMountpoint hj.tools _) ?_ ?_
        · intro r' f m' ht' hr'
          have hr' := Reply.succeeded_eq_error.1 hr'
          exact .of_verdict hr' (.unchecked hmade ht hr ht' hr')
        · intro r' b m' ht' hr'
          cases b with
          | false =>
            obtain ⟨n, hn, hn0⟩ := Reply.succeeded_eq_ok_false.1 hr'
            exact obeys_fail ⟨rfl, .inactive hmade ht hr ht' hn hn0⟩
          | true =>
            exact obeys_pure (.active hmade ht hr ht' (Reply.succeeded_eq_ok_true.1 hr'))

theorem obeys_selectRoute (hj : j.IsLive) :
    j.selectRoute.Obeys s h (j.Selection s.touch h) := by
  unfold selectRoute
  refine Obeys.bind_attempt (obeys_probeMount hj) fun xs res m hx => ?_
  cases res with
  | ok _ =>
    refine obeys_pure ?_
    rwa [List.append_nil]
  | error f =>
    cases f with
    | update fault =>
      obtain ⟨hk, hs⟩ := hx
      simp only [hk, if_true]
      refine Obeys.after_log (obeys_pure ?_)
      rwa [List.append_nil]
    | _ =>
      refine obeys_fail ?_
      rwa [List.append_nil]

theorem obeys_runBy (hj : j.IsLive) (route : Route) :
    (j.runBy route).Obeys s h (j.RouteCourse s.touch route h) :=
  match route with
  | .mounted => obeys_mounted hj
  | .offline => obeys_offline hj

end Job

open Run

variable {s : Scene} {h : Host} {source : Path} {settings : Settings} {tools : Option Tools}

/-- The checks of the inputs, before a run that goes on only if both are regular files. -/
theorem Obeys.bind_validateInputs {image : Path} {k : Unit → Run Placement} {C : Conduct Placement}
    (hsource : ∀ why, h.isFile source = .error why → C [] (.error (.refused why)) h)
    (hsource' : h.isFile source = .ok false → C [] (.error (.update (.sourceMissing source))) h)
    (himage : ∀ why, h.isFile source = .ok true → h.isFile image = .error why →
      C [] (.error (.refused why)) h)
    (himage' : h.isFile source = .ok true → h.isFile image = .ok false →
      C [] (.error (.update (.imageMissing image))) h)
    (hk : h.isFile source = .ok true → h.isFile image = .ok true → (k ()).Obeys s h C) :
    (validateInputs source image >>= k).Obeys s h C := by
  refine Obeys.bind (D := fun xs res m => xs = [] ∧ m = h ∧ match res with
    | .ok _ => h.isFile source = .ok true ∧ h.isFile image = .ok true
    | .error f => C [] (.error f) h) ?_ ?_ ?_
  · unfold validateInputs
    refine Obeys.bind_look (Host.isFile_blank _ · _) (fun why hw => ⟨rfl, rfl, hsource why hw⟩)
      fun b hs => ?_
    refine Obeys.fail_if (fun hb => ⟨rfl, rfl, hsource' (by simp_all)⟩) fun hb => ?_
    obtain rfl : b = true := by simpa using hb
    refine Obeys.bind_look (Host.isFile_blank _ · _) (fun why hw => ⟨rfl, rfl, himage why hs hw⟩)
      fun b hi => ?_
    split
    · next hb => exact obeys_fail ⟨rfl, rfl, himage' hs (by simp_all)⟩
    · next hb => exact obeys_pure ⟨rfl, rfl, hs, by simp_all⟩
  · rintro xs f m ⟨rfl, rfl, hC⟩
    exact hC
  · rintro xs a m ⟨rfl, rfl, hs, hi⟩
    exact hk hs hi

/-- An update whose job is not dry takes its course. -/
theorem obeys_update
    (hj : ∀ image j, settings.job source image tools = .ok j → j.IsLive) :
    (update source settings tools).Obeys s h (Course s.touch source settings tools h) := by
  unfold update
  refine Obeys.bind_ofExcept ?_ fun image hi => ?_
  · intro f hf
    cases hi : settings.imagePath <;> rw [hi] at hf <;> cases hf
    exact .unnamed hi
  have hi : settings.imagePath = .ok image := by
    cases hi' : settings.imagePath <;> rw [hi'] at hi <;> cases hi
    rfl
  refine Obeys.bind_validateInputs (fun why hs => .sourceUnseen hi hs)
    (fun hs => .sourceMissing hi hs)
    (fun why hs hw => .imageUnseen hi hs hw) (fun hs hw => .imageMissing hi hs hw) fun hs hw => ?_
  refine Obeys.bind_ofExcept (fun f hf => .unset hi hs hw hf) fun j hset => ?_
  have hlive := hj image j hset
  refine Obeys.after_note rfl rfl ?_
  refine Obeys.bind (Job.obeys_selectRoute hlive) ?_ ?_
  · intro xs f m hx
    exact .unselected hi hs hw hset hx
  · intro xs route m hx
    refine Obeys.after_log ((Job.obeys_runBy hlive route).mono fun ys res h' hy => ?_)
    exact .selected hi hs hw hset hx hy

/-! ## Jobs of the settings -/

theorem Settings.job_eq_ok {image : Path} {j : Job} :
    settings.job source image tools = .ok j ↔ ∃ mountDir destDir t,
      settings.mountDir = .ok mountDir ∧ settings.destDir = .ok destDir ∧
        tools.elim settings.tools .ok = .ok t ∧
          j = ⟨source, image, mountDir, destDir, t, settings.dryRun⟩ := by
  unfold Settings.job
  rcases settings.mountDir with v | m
  · simp [mapError_error, bind, Except.bind]
  rcases settings.destDir with v | d
  · simp [mapError_ok, mapError_error, bind, Except.bind]
  rcases tools with _ | t
  · rcases settings.tools with f | t <;>
      simp [mapError_ok, bind, Except.bind, pure, Except.pure, eq_comm]
  · simp [mapError_ok, bind, Except.bind, pure, Except.pure, eq_comm]

theorem Settings.mountDir_of_job {image : Path} {j : Job}
    (hj : settings.job source image tools = .ok j) : settings.mountDir = .ok j.mountDir := by
  obtain ⟨m, d, t, hm, -, -, rfl⟩ := Settings.job_eq_ok.1 hj
  exact hm

/-- A job of settings that are not dry, with tools that are not dry, is live. -/
theorem Settings.isLive_of_job {image : Path} {j : Job} (hs : settings.dryRun = false)
    (ht : ∀ t, tools = some t → t.dryRun = false)
    (hj : settings.job source image tools = .ok j) : j.IsLive := by
  obtain ⟨m, d, t, -, -, htools, rfl⟩ := Settings.job_eq_ok.1 hj
  refine ⟨hs, ?_⟩
  rcases tools with _ | t'
  · simp only [Option.elim_none, Settings.tools] at htools
    rcases hu : settings.useSudo with f | b <;> rw [hu] at htools <;> cases htools
    exact hs
  · cases htools
    exact ht t rfl

/-! ## A host to run on -/

/-- A host with a file to copy and an image, both in its current directory. -/
def Host.workbench : Host where
  tree := { entries := [(["app.bin"], .file 0 [7]), (["disk.img"], .file 1 [1, 2])], next := 2 }
  here := []

/-- A world in which nothing was done yet, and nothing is logged. -/
def World.untouched (h : Host) : World where
  host := h
  journal := { threshold := .warning, sinks := [], setUp := none, stamp := "", account := "" }
  trace := []

theorem eq_ok_of_toOption {ε α : Type} {e : Except ε α} {a : α} (h : e.toOption = some a) :
    e = .ok a := by
  cases e <;> cases h
  rfl

/-- The error of a computation that has no result. -/
def errorOf {ε α : Type} : Except ε α → Option ε
  | .ok _ => none
  | .error e => some e

theorem eq_error_of_errorOf {ε α : Type} {e : Except ε α} {f : ε} (h : errorOf e = some f) :
    e = .error f := by
  cases e <;> cases h
  rfl

end FatInstall
