import FatInstall.Proofs.Run.Courses

/-!
# The checks before an update

Before it does anything an update looks at its inputs and its settings. These checks depend on the
host alone, come in a fixed order, and leave the world as it was.

* `admission`: the job that passes the checks, or the failure of the first one that is not passed.
* `update_eq_admission`: an update is its admission, with the job carried out after it.
-/

namespace FatInstall

/-- The checks of the inputs: both must be regular files, the source first. -/
def checkInputs (h : Host) (source image : Path) : Except Failure Unit := do
  if !(← (h.isFile source).mapError Failure.refused) then
    .error (.update (.sourceMissing source))
  if !(← (h.isFile image).mapError Failure.refused) then .error (.update (.imageMissing image))

/-- The job that an update is about to do, unless its inputs or its settings forbid it. -/
def admission (h : Host) (source : Path) (settings : Settings) (tools : Option Tools) :
    Except Failure Job := do
  let image ← settings.imagePath.mapError Failure.value
  checkInputs h source image
  settings.job source image tools

/-- Does the job, with the lines around it. -/
def Job.carryOut (j : Job) : Run Placement := do
  Run.print ("Write file '" ++ j.source.text ++ "' into " ++ j.image.text)
  let route ← j.selectRoute
  Run.log .info .update s!"Using strategy {route.name}"
  j.runBy route

/-! ## Settings that agree in a key -/

namespace Settings

variable {s s' : Settings}

theorem imagePath_congr (h : s'.get? "image" = s.get? "image") : s'.imagePath = s.imagePath := by
  simp only [imagePath, getOr, h]

theorem mountDir_congr (h : s'.get? "mount_dir" = s.get? "mount_dir") :
    s'.mountDir = s.mountDir := by
  simp only [mountDir, getOr, h]

theorem destDir_congr (h : s'.get? "dest_dir" = s.get? "dest_dir") : s'.destDir = s.destDir := by
  simp only [destDir, getOr, h]

theorem useSudo_congr (h : s'.get? "use_sudo" = s.get? "use_sudo") : s'.useSudo = s.useSudo := by
  simp only [useSudo, h]

theorem dryRun_congr (h : s'.get? "dry_run" = s.get? "dry_run") : s'.dryRun = s.dryRun := by
  simp only [dryRun, h]

end Settings

/-! ## Updates -/

namespace Run

variable {α β γ : Type} {r : Run α} {k : α → Run β} {programs : Programs} {w w' : World}

theorem bind_of_error {f : Failure} (h : r programs w = (.error f, w')) :
    (r >>= k) programs w = (.error f, w') := by
  change andThen r k programs w = _
  rw [andThen, h]

theorem bind_of_ok {a : α} (h : r programs w = (.ok a, w')) :
    (r >>= k) programs w = k a programs w' := by
  change andThen r k programs w = _
  rw [andThen, h]

theorem bind_assoc (r : Run α) (k : α → Run β) (l : β → Run γ) :
    r >>= k >>= l = r >>= fun a => k a >>= l := by
  funext programs w
  rcases hrw : r programs w with ⟨f | a, w'⟩
  · exact (bind_of_error (bind_of_error hrw)).trans (bind_of_error hrw).symm
  · change andThen (andThen r k) l programs w = andThen r (fun a => andThen (k a) l) programs w
    simp only [andThen, hrw]

end Run

variable {source image : Path} {settings : Settings} {tools : Option Tools} {w : World}

theorem validateInputs_eq (programs : Programs) :
    validateInputs source image programs w = (checkInputs w.host source image, w) := by
  unfold validateInputs checkInputs
  rcases hs : (w.host.isFile source).mapError Failure.refused with f | b
  · exact Run.bind_of_error (congrArg (·, w) hs)
  rw [Run.bind_of_ok (congrArg (·, w) hs)]
  cases b with
  | false => rfl
  | true =>
    rcases hi : (w.host.isFile image).mapError Failure.refused with f | b
    · exact Run.bind_of_error (congrArg (·, w) hi)
    · refine (Run.bind_of_ok (congrArg (·, w) hi)).trans ?_
      cases b <;> rfl

/-- An update is its admission with the job carried out after it. -/
theorem update_eq_admission (programs : Programs) :
    update source settings tools programs w =
      match admission w.host source settings tools with
      | .error f => (.error f, w)
      | .ok j => j.carryOut programs w := by
  unfold update admission
  rcases settings.imagePath.mapError Failure.value with f | image
  · rfl
  rw [Run.bind_of_ok rfl]
  rcases hc : checkInputs w.host source image with f | _
  · rw [Run.bind_of_error ((validateInputs_eq programs).trans (congrArg (·, w) hc))]
    simp [hc, bind, Except.bind]
  rw [Run.bind_of_ok ((validateInputs_eq programs).trans (congrArg (·, w) hc))]
  rcases hj : settings.job source image tools with f | j
  · rw [Run.bind_of_error rfl]
    simp [hj, hc, bind, Except.bind]
  · obtain ⟨m, d, t, -, -, -, rfl⟩ := Settings.job_eq_ok.1 hj
    rw [Run.bind_of_ok rfl]
    simp only [hj, hc, bind, Except.bind]
    rfl

theorem checkInputs_of_source {h : Host} (hs : h.isFile source = .ok false) :
    checkInputs h source image = .error (.update (.sourceMissing source)) := by
  simp [checkInputs, hs, Run.mapError_ok, bind, Except.bind]

theorem checkInputs_of_image {h : Host} (hs : h.isFile source = .ok true)
    (hi : h.isFile image = .ok false) :
    checkInputs h source image = .error (.update (.imageMissing image)) := by
  simp [checkInputs, hs, hi, Run.mapError_ok, bind, Except.bind]

theorem checkInputs_of_source_error {h : Host} {why : Host.Refusal}
    (hs : h.isFile source = .error why) :
    checkInputs h source image = .error (.refused why) := by
  simp [checkInputs, hs, Run.mapError_error, bind, Except.bind]

theorem checkInputs_of_image_error {h : Host} {why : Host.Refusal}
    (hs : h.isFile source = .ok true) (hi : h.isFile image = .error why) :
    checkInputs h source image = .error (.refused why) := by
  simp [checkInputs, hs, hi, Run.mapError_ok, Run.mapError_error, bind, Except.bind]

theorem checkInputs_eq_ok {h : Host} :
    checkInputs h source image = .ok () ↔
      h.isFile source = .ok true ∧ h.isFile image = .ok true := by
  unfold checkInputs
  rcases h.isFile source with why | _ | _
  · simp [Run.mapError_error, bind, Except.bind]
  · simp [Run.mapError_ok, bind, Except.bind]
  rcases h.isFile image with why | _ | _ <;>
    simp [Run.mapError_ok, Run.mapError_error, bind, Except.bind, pure, Except.pure]

theorem admission_eq_ok {h : Host} {j : Job} :
    admission h source settings tools = .ok j ↔ ∃ image, settings.imagePath = .ok image ∧
      h.isFile source = .ok true ∧ h.isFile image = .ok true ∧
        settings.job source image tools = .ok j := by
  unfold admission
  rcases settings.imagePath with v | image
  · simp [Run.mapError_error, bind, Except.bind]
  rcases hc : checkInputs h source image with f | _
  · have hno : h.isFile source = .ok true → h.isFile image ≠ .ok true := fun hs hi => by
      cases hc.symm.trans (checkInputs_eq_ok.2 ⟨hs, hi⟩)
    simpa [hc, Run.mapError_ok, bind, Except.bind] using fun hs hi => (hno hs hi).elim
  · have hyes := checkInputs_eq_ok.1 hc
    simp [hc, Run.mapError_ok, bind, Except.bind, hyes]

end FatInstall
