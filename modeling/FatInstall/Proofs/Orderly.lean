import FatInstall.Proofs.Inputs
import FatInstall.Proofs.Run.Rehearsal

/-!
# Updates that fail only with failures of their own

Programs that only end, with whatever status, or are missing, never make an update fail with
anything but a failure of its own. Its host can: the update asks it for the inputs and makes it
remove what is at the scratch directory, and a refusal is translated only where the scratch
directory is made.

* `IsOrderly`: a result, or a failure of the program's own.
* `Quiet`: programs that only end or are missing, and touch nothing.
* `Host.IsDisposable`: the scratch directory can be removed after it was made.
* `Course.orderly`, `Course.isDisposable_of_orderly`: when the commands end, this puts an update in
  order, and when they all fail nothing else does.
* `update_orderly_iff`: an update is in order with all quiet programs exactly if its paths can be
  followed, its settings read, and its scratch directory removed.
-/

namespace FatInstall

/-! ## Results in order -/

/-- Is a failure, if this is one, one of the program's own? -/
def IsOrderly {α : Type} (res : Except Failure α) : Prop :=
  ∀ f, res = .error f → ∃ fault, f = .update fault

section

variable {α β : Type}

@[simp] theorem isOrderly_ok {a : α} : IsOrderly (.ok a) := by
  intro f hf
  cases hf

@[simp] theorem isOrderly_error {f : Failure} :
    IsOrderly (.error f : Except Failure α) ↔ ∃ fault, f = .update fault := by
  simp [IsOrderly]

theorem isOrderly_update {fault : UpdateFault} :
    IsOrderly (.error (.update fault) : Except Failure α) :=
  isOrderly_error.2 ⟨fault, rfl⟩

instance (res : Except Failure α) : Decidable (IsOrderly res) :=
  match res with
  | .ok _ => .isTrue isOrderly_ok
  | .error (.update _) => .isTrue isOrderly_update
  | .error (.command _) | .error (.refused _) | .error (.value _) | .error .emptyCommand
  | .error (.exit _) | .error .interrupted => .isFalse (by simp)

/-- One computation after the other is in order if the first is, and the second is after every
result of the first. -/
theorem isOrderly_bind {res : Except Failure α} {k : α → Except Failure β} :
    IsOrderly (res.bind k) ↔ IsOrderly res ∧ ∀ a, res = .ok a → IsOrderly (k a) := by
  cases res <;> simp [Except.bind]

end

/-! ## Quiet programs -/

/-- Did the command end with some status, or is there no such command? -/
def Reply.IsQuiet (r : Reply) : Prop :=
  (∃ status out err, r = .exited status out err) ∨ ∃ path, r = .unstarted (.system .missing path)

/-- Programs that only end with some status or are missing, and that leave the host as it is. -/
structure Quiet (programs : Programs) : Prop where
  inert : Inert programs
  isQuiet : ∀ earlier s h, (programs earlier s h).1.IsQuiet

theorem quiet_failing : Quiet failing :=
  ⟨fun _ _ _ => rfl, fun _ _ _ => .inl ⟨1, "", "", rfl⟩⟩

theorem Reply.IsQuiet.verdict {r : Reply} (h : r.IsQuiet) : ∃ n, r.verdict = .ok n := by
  rcases h with ⟨status, out, err, rfl⟩ | ⟨path, rfl⟩ <;> exact ⟨_, rfl⟩

/-- A checked command that ends fails, if at all, as a command that was to succeed. -/
theorem Reply.isCommand_of_checked {argv : List Text} {r : Reply} {f : Failure} {n : Int}
    (hv : r.verdict = .ok n) (hc : r.checked argv = .error f) : ∃ why, f = .command why := by
  rcases r.checked_cases argv with ⟨-, hc'⟩ | ⟨why, -, -, -, hc'⟩ | ⟨f', hv', -⟩
  · cases hc.symm.trans hc'
  · cases hc.symm.trans hc'
    exact ⟨why, rfl⟩
  · cases hv.symm.trans hv'

/-- Did every command of the trace end? -/
def AllEnd (acts : List Event) : Prop := ∀ st r, .started st r ∈ acts → ∃ n, r.verdict = .ok n

theorem AllEnd.mono {xs acts : List Event} (h : AllEnd acts) (hs : xs ⊆ acts) : AllEnd xs :=
  fun st r hm => h st r (hs hm)

theorem AllFail.allEnd {acts : List Event} (h : AllFail acts) : AllEnd acts :=
  fun st r hm => ⟨1, h st r hm⟩

theorem AllEnd.ne_error {acts : List Event} (h : AllEnd acts) {st : Start} {r : Reply}
    (hm : .started st r ∈ acts) (f : Failure) : r.verdict ≠ .error f := by
  obtain ⟨n, hn⟩ := h st r hm
  rw [hn]
  exact nofun

/-! ## Scratch directories -/

namespace Host

variable {h : Host} {d : Path}

/-- Can the host be asked for the directory, and what is there after the directory was made be
removed? -/
def IsDisposable (h : Host) (d : Path) : Prop :=
  unspeakable? d = none ∧ (h.makeDirectory d).2.IsClearable d

theorem isDisposable_iff :
    h.IsDisposable d ↔ unspeakable? d = none ∧ (h.makeDirectory d).2.clearing d = .ok () :=
  and_congr_right fun hu => (clearing_eq_ok_iff hu).symm

theorem isDisposable_blank (logs : List Nat) :
    (h.blank logs).IsDisposable d ↔ h.IsDisposable d := by
  rw [isDisposable_iff, isDisposable_iff, makeDirectory_blank, clearing_blank]

theorem isBySystem_of_unspeakable {why : Refusal}
    (hu : unspeakable? d = some why) : why.isBySystem = false := by
  unfold unspeakable? at hu
  split at hu
  · cases hu
    rfl
  split at hu <;> cases hu
  rfl

end Host

/-! ## Courses in order -/

namespace Job

variable {j : Job} {h h' : Host} {acts : List Event}

/-- The removal has an answer if the host does not refuse it. -/
theorem Removal.ok_of_clearing {res : Except Failure Bool} (hr : j.Removal Still h acts res h')
    (he : AllEnd acts) (hc : h.clearing j.mountDir = .ok ()) : ∃ b, res = .ok b := by
  cases hr with
  | unseen hd => simp [Host.clearing, hd] at hc
  | absent _ | mounted _ _ _ => exact ⟨_, rfl⟩
  | broken _ _ hv => exact (he.ne_error (.tail _ (.head _)) _ hv).elim
  | unclear hd ht _ _ hdir =>
    cases ht
    simp [Host.clearing, hd, Host.discard_eq, hdir] at hc
  | removed hd ht _ _ _ =>
    cases ht
    simp only [Host.clearing, hd] at hc
    rw [Host.discardBy_plain, hc]
    exact ⟨_, rfl⟩

/-- When every command fails, the removal is refused if the host refuses it. -/
theorem Removal.refused_of_allFail {res : Except Failure Bool} {why : Host.Refusal}
    (hr : j.Removal Still h acts res h') (hf : AllFail acts)
    (hc : h.clearing j.mountDir = .error why) : res = .error (.refused why) := by
  cases hr with
  | unseen hd =>
    simp only [Host.clearing, hd] at hc
    cases hc
    rfl
  | absent hd => simp [Host.clearing, hd] at hc
  | broken _ _ hv | mounted _ _ hv =>
    rw [hf _ _ (.tail _ (.head _))] at hv
    cases hv
  | unclear hd ht _ _ hdir =>
    cases ht
    simp only [Host.clearing, hd, Host.discard_eq, hdir] at hc
    cases hc
    rfl
  | removed hd ht _ _ _ =>
    cases ht
    simp only [Host.clearing, hd] at hc
    rw [Host.discardBy_plain, hc]
    rfl

theorem Release.orderly {strict : Bool} {res : Except Failure Unit}
    (hr : j.Release Still strict h acts res h') (he : AllEnd acts)
    (hc : h.clearing j.mountDir = .ok ()) : IsOrderly res := by
  cases hr with
  | broken _ hv => exact (he.ne_error (.head _) _ hv).elim
  | kept _ _ _ =>
    split
    · exact isOrderly_update
    · exact isOrderly_ok
  | unsynced _ _ _ hv => exact (he.ne_error (.tail _ (.head _)) _ hv).elim
  | freed ht _ ht' _ hrem =>
    cases ht
    cases ht'
    obtain ⟨b, rfl⟩ := hrem.ok_of_clearing (he.mono fun _ hm => .tail _ (.tail _ hm)) hc
    change IsOrderly (if !b && strict then _ else _)
    split
    · exact isOrderly_update
    · exact isOrderly_ok

/-- A copy into the mounted image fails, if at all, as a command that was to succeed. -/
theorem Copying.isCommand {res : Except Failure Unit} (hc : j.Copying Still h acts res h')
    (he : AllEnd acts) (f : Failure) (hf : res = .error f) : ∃ why, f = .command why := by
  cases hc with
  | unmade _ hr =>
    cases hf
    obtain ⟨n, hn⟩ := he _ _ (.head _)
    exact Reply.isCommand_of_checked hn hr
  | uncopied _ _ _ hr =>
    cases hf
    obtain ⟨n, hn⟩ := he _ _ (.tail _ (.head _))
    exact Reply.isCommand_of_checked hn hr
  | copied _ _ _ _ _ =>
    exact (he.ne_error (.tail _ (.tail _ (.head _))) _ (Reply.ended_eq_error.1 hf)).elim

theorem MountedCourse.orderly {res : Except Failure Placement}
    (hm : j.MountedCourse Still h acts res h') (he : AllEnd acts)
    (hc : h.clearing j.mountDir = .ok ()) : IsOrderly res := by
  cases hm with
  | uncopied hx hr =>
    cases hx.host
    exact isOrderly_bind.2
      ⟨hr.orderly (he.mono (List.subset_append_right _ _)) hc, fun _ _ => isOrderly_update⟩
  | broken hx hne =>
    obtain ⟨why, rfl⟩ := hx.isCommand he _ rfl
    exact (hne why rfl).elim
  | unreleased hx hr =>
    cases hx.host
    have hown := hr.orderly (he.mono (List.subset_append_right _ _)) hc
    exact isOrderly_error.2 (isOrderly_error.1 hown)
  | done _ _ => exact isOrderly_ok

theorem Making.eq_ok {dirs : List Text} {res : Except Failure Unit}
    (hm : j.Making Still dirs h acts res h') (he : AllEnd acts) : res = .ok () := by
  induction hm with
  | done => rfl
  | broken _ hv => exact (he.ne_error (.head _) _ hv).elim
  | next _ _ _ ih => exact ih (he.mono fun _ hm => .tail _ hm)

theorem OfflineCourse.orderly {res : Except Failure Placement}
    (ho : j.OfflineCourse Still h acts res h') (he : AllEnd acts)
    (hc : h.clearing j.mountDir = .ok ()) : IsOrderly res := by
  cases ho with
  | broken _ hv => exact (he.ne_error (.tail _ (.head _)) _ hv).elim
  | unremoved ht _ hr =>
    cases ht
    obtain ⟨b, hb⟩ := hr.ok_of_clearing (he.mono fun _ hm => .tail _ (.tail _ hm)) hc
    cases hb
  | mounted _ _ _ => exact isOrderly_update
  | unmade _ _ _ hm =>
    cases hm.eq_ok (he.mono fun _ hx => .tail _ (.tail _ (List.mem_append_right _ hx)))
  | @uncopied _ r' _ _ _ f _ _ _ _ _ _ _ _ _ hr' =>
    obtain ⟨n, hn⟩ := he (j.tools.start (.mcopy j.image j.source j.destDir)) r' (by simp [event])
    obtain ⟨why, rfl⟩ := Reply.isCommand_of_checked hn hr'
    exact isOrderly_update
  | done _ _ _ _ _ _ => exact isOrderly_ok

theorem RouteCourse.orderly {route : Route} {res : Except Failure Placement}
    (hr : j.RouteCourse Still route h acts res h') (he : AllEnd acts)
    (hc : h.clearing j.mountDir = .ok ()) : IsOrderly res := by
  cases route with
  | mounted => exact MountedCourse.orderly hr he hc
  | offline => exact OfflineCourse.orderly hr he hc

/-- When every command fails, the job done offline is refused if the host refuses to remove the
scratch directory. -/
theorem OfflineCourse.refused_of_allFail {res : Except Failure Placement} {why : Host.Refusal}
    (ho : j.OfflineCourse Still h acts res h') (hf : AllFail acts)
    (hc : h.clearing j.mountDir = .error why) : res = .error (.refused why) := by
  have hno : ∀ {xs : List Event} {b : Bool} {m : Host}, j.Removal Still h xs (.ok b) m →
      ¬AllFail xs := fun hr hx => by
    cases hr.refused_of_allFail hx hc
  cases ho with
  | broken _ hv =>
    rw [hf _ _ (.tail _ (.head _))] at hv
    cases hv
  | unremoved ht _ hr =>
    cases ht
    cases hr.refused_of_allFail (hf.mono fun _ hm => .tail _ (.tail _ hm)) hc
    rfl
  | mounted ht _ hr =>
    cases ht
    exact (hno hr (hf.mono fun _ hm => .tail _ (.tail _ hm))).elim
  | unmade ht _ hr _ | uncopied ht _ hr _ _ _ | done ht _ hr _ _ _ =>
    cases ht
    exact (hno hr (hf.mono fun _ hm => .tail _ (.tail _ (List.mem_append_left _ hm)))).elim

/-- A refusal to make the scratch directory is no failure of the update, unless the directory
cannot even be asked for. -/
theorem Selection.eq_ok {res : Except Failure Route} (hs : j.Selection Still h acts res h')
    (he : AllEnd acts) (hu : Host.unspeakable? j.mountDir = none) : ∃ route, res = .ok route := by
  cases hs with
  | unspeakable hm hw =>
    unfold Host.makeDirectory at hm
    rw [hu] at hm
    rw [Host.isBySystem_of_makeUpTo hm] at hw
    cases hw
  | refused _ _ | unmounted _ _ _ _ | inactive _ _ _ _ _ _ | active _ _ _ _ _ => exact ⟨_, rfl⟩
  | broken _ _ hv => exact (he.ne_error (.tail _ (.head _)) _ hv).elim
  | unchecked _ _ _ _ hv => exact (he.ne_error (.tail _ (.tail _ (.head _))) _ hv).elim

/-- A scratch directory that cannot even be asked for makes the update fail. -/
theorem Selection.refused_of_unspeakable {res : Except Failure Route} {why : Host.Refusal}
    (hs : j.Selection Still h acts res h') (hu : Host.unspeakable? j.mountDir = some why) :
    res = .error (.refused why) := by
  have hmake : h.makeDirectory j.mountDir = (.error why, h) := by
    unfold Host.makeDirectory
    rw [hu]
  cases hs with
  | unspeakable hm _ =>
    rw [hmake] at hm
    cases hm
    rfl
  | refused hm hw =>
    rw [hmake] at hm
    cases hm
    rw [Host.isBySystem_of_unspeakable hu] at hw
    cases hw
  | broken hm _ _ | unmounted hm _ _ _ | unchecked hm _ _ _ _ | inactive hm _ _ _ _ _
  | active hm _ _ _ _ =>
    rw [hmake] at hm
    cases hm

end Job

/-! ## Admissions in order -/

section

variable {h : Host} {source image d : Path} {dest : Text} {settings : Settings}

theorem Settings.useSudo_eq_error {f : Failure} (hf : settings.useSudo = .error f) :
    (∃ fault, f = .update fault) ∨ ∃ v, f = .value v := by
  unfold useSudo privilegeOf at hf
  split at hf
  · cases hf
  · cases hf
  · cases hf
  · split at hf <;> cases hf
    · exact .inl ⟨_, rfl⟩
    · exact .inr ⟨_, rfl⟩

theorem Settings.useSudo_orderly_iff :
    IsOrderly settings.useSudo ↔ ∀ v, settings.useSudo ≠ .error (.value v) := by
  constructor
  · intro ho v hv
    obtain ⟨fault, hfault⟩ := ho _ hv
    cases hfault
  · intro hv f hf
    rcases Settings.useSudo_eq_error hf with hown | ⟨v, rfl⟩
    · exact hown
    · exact (hv v hf).elim

/-- With paths that can be read, the settings give a job if they say whether to use `sudo`. -/
theorem Settings.job_eq_map (hm : settings.mountDir = .ok d) (hd : settings.destDir = .ok dest) :
    settings.job source image none = settings.useSudo.map fun b =>
      ⟨source, image, d, dest, ⟨b, settings.dryRun⟩, settings.dryRun⟩ := by
  unfold Settings.job Settings.tools
  rw [hm, hd]
  cases settings.useSudo <;> rfl

theorem checkInputs_orderly_iff : IsOrderly (checkInputs h source image) ↔
    ¬h.IsTooLong source ∧ (h.LeadsToFile source → ¬h.IsTooLong image) := by
  by_cases hs : h.IsTooLong source
  · simp [checkInputs_of_source_error (Host.isFile_of_isTooLong hs), hs]
  by_cases hfile : h.LeadsToFile source
  · have hyes := Host.isFile_of_leadsToFile hfile
    by_cases hi : h.IsTooLong image
    · simp [checkInputs_of_image_error hyes (Host.isFile_of_isTooLong hi), hfile, hi]
    by_cases hfile' : h.LeadsToFile image
    · simp [checkInputs_eq_ok.2 ⟨hyes, Host.isFile_of_leadsToFile hfile'⟩, hs, hi]
    · simp [checkInputs_of_image hyes (Host.isFile_of_not hfile' hi), hs, hi]
  · simp [checkInputs_of_source (Host.isFile_of_not hfile hs), hs, hfile]

/-- The checks fail only with failures of the program's own exactly if the inputs can be followed,
the image only after the source was found, and then the word on `sudo` can be read. -/
theorem admission_orderly_iff (hi : settings.imagePath = .ok image)
    (hm : settings.mountDir = .ok d) (hd : settings.destDir = .ok dest) :
    IsOrderly (admission h source settings none) ↔
      ¬h.IsTooLong source ∧ (h.LeadsToFile source →
        ¬h.IsTooLong image ∧ (h.LeadsToFile image →
          ∀ v, settings.useSudo ≠ .error (.value v))) := by
  have hadm : admission h source settings none =
      (checkInputs h source image).bind fun _ => settings.job source image none := by
    unfold admission
    rw [hi]
    rfl
  have hjob : IsOrderly (settings.job source image none) ↔
      ∀ v, settings.useSudo ≠ .error (.value v) := by
    rw [Settings.job_eq_map hm hd, ← Settings.useSudo_orderly_iff]
    cases settings.useSudo <;> simp [Except.map]
  have hfiles : checkInputs h source image = .ok () ↔
      h.LeadsToFile source ∧ h.LeadsToFile image :=
    checkInputs_eq_ok.trans (and_congr Host.isFile_eq_ok_true Host.isFile_eq_ok_true)
  rw [hadm, isOrderly_bind, checkInputs_orderly_iff, hjob]
  constructor
  · rintro ⟨⟨hs, himage⟩, hsudo⟩
    exact ⟨hs, fun hfile => ⟨himage hfile, fun hfile' => hsudo () (hfiles.2 ⟨hfile, hfile'⟩)⟩⟩
  · rintro ⟨hs, hrest⟩
    refine ⟨⟨hs, fun hfile => (hrest hfile).1⟩, fun _ hc => ?_⟩
    obtain ⟨hfile, hfile'⟩ := hfiles.1 hc
    exact (hrest hfile).2 hfile'

end

/-! ## Updates -/

section

variable {source image d : Path} {dest : Text} {settings : Settings} {tools : Option Tools}
  {j : Job} {w : World}

theorem admission_blank (logs : List Nat) (h : Host) :
    admission (h.blank logs) source settings tools = admission h source settings tools := by
  simp only [admission, checkInputs, Host.isFile_blank]

/-- When the commands end, an admitted update is in order if its scratch directory is disposable. -/
theorem Course.orderly {h h' : Host} {acts : List Event} {res : Except Failure Placement}
    (hadm : admission h source settings tools = .ok j)
    (hc : Course Still source settings tools h acts res h') (he : AllEnd acts)
    (hd : h.IsDisposable j.mountDir) : IsOrderly res := by
  obtain ⟨hu, hclear⟩ := Host.isDisposable_iff.1 hd
  obtain ⟨image, hi, hs, hs', hj⟩ := admission_eq_ok.1 hadm
  rcases hc.of_inputs hi hs hs' hj with ⟨xs, f, rfl, -, hsel⟩ | ⟨route, xs, ys, m, rfl, hsel, hr⟩
  · obtain ⟨route, hroute⟩ := hsel.eq_ok (he.mono (List.subset_cons_self _ _)) hu
    cases hroute
  · cases hsel.host
    exact hr.orderly (he.mono fun _ hm => .tail _ (List.mem_append_right _ hm)) hclear

/-- When all commands fail, it is in order only then: nothing is mounted, and the removal is
tried. -/
theorem Course.isDisposable_of_orderly {h h' : Host} {acts : List Event}
    {res : Except Failure Placement} (hadm : admission h source settings tools = .ok j)
    (hc : Course Still source settings tools h acts res h') (hf : AllFail acts)
    (ho : IsOrderly res) : h.IsDisposable j.mountDir := by
  obtain ⟨image, hi, hs, hs', hj⟩ := admission_eq_ok.1 hadm
  rcases hc.of_inputs hi hs hs' hj with ⟨xs, f, rfl, rfl, hsel⟩ | ⟨route, xs, ys, m, rfl, hsel, hr⟩
  · -- no way was found
    exfalso
    cases hu : Host.unspeakable? j.mountDir with
    | some why =>
      cases hsel.refused_of_unspeakable hu
      simp at ho
    | none =>
      obtain ⟨route, hroute⟩ := hsel.eq_ok (hf.allEnd.mono (List.subset_cons_self _ _)) hu
      cases hroute
  · have hu : Host.unspeakable? j.mountDir = none :=
      Option.eq_none_iff_forall_ne_some.2 fun why hu => by cases hsel.refused_of_unspeakable hu
    have hroute : route = .offline := by
      rcases hsel.offline_of_allFail
        (hf.mono fun _ hm => .tail _ (List.mem_append_left _ hm)) with hroute | ⟨f, hfail, -⟩
      · exact Except.ok.inj hroute
      · cases hfail
    cases hroute
    cases hsel.host
    refine Host.isDisposable_iff.2 ⟨hu, ?_⟩
    cases hclear : (h.makeDirectory j.mountDir).2.clearing j.mountDir with
    | ok _ => rfl
    | error why =>
      rw [Job.OfflineCourse.refused_of_allFail hr
        (hf.mono fun _ hm => .tail _ (List.mem_append_right _ hm)) hclear] at ho
      simp at ho

/-- An admitted update that is not dry is in order with all quiet programs exactly if its scratch
directory is disposable. -/
theorem admitted_orderly_iff (hdry : settings.dryRun = false)
    (hadm : admission w.host source settings none = .ok j) :
    (∀ programs, Quiet programs → IsOrderly (update source settings none programs w).1) ↔
      w.host.IsDisposable j.mountDir := by
  have hlive : ∀ image j, settings.job source image none = .ok j → j.IsLive :=
    fun _ _ hj => Settings.isLive_of_job hdry (by simp) hj
  have hadm := (admission_blank w.journal.openLogs w.host).trans hadm
  rw [← Host.isDisposable_blank w.journal.openLogs]
  constructor
  · intro ho
    obtain ⟨added, ha, hc⟩ := course_of_inert w quiet_failing.inert hlive
    refine hc.isDisposable_of_orderly hadm (fun st r hm => ?_) (ho failing quiet_failing)
    rw [(answered_actsOf ha).forall_reply (P := (· = .exited 1 "" "")) (fun _ _ _ => rfl) st r hm]
    rfl
  · intro hd programs hp
    obtain ⟨added, ha, hc⟩ := course_of_inert w hp.inert hlive
    exact hc.orderly hadm
      (fun st r hm => ((answered_actsOf ha).forall_reply hp.isQuiet st r hm).verdict) hd

/-- An update is in order with all quiet programs exactly if its checks are, and what they admit
is dry or has a disposable scratch directory. -/
theorem update_orderly_iff_admission :
    (∀ programs, Quiet programs → IsOrderly (update source settings none programs w).1) ↔
      IsOrderly (admission w.host source settings none) ∧
        ∀ j, admission w.host source settings none = .ok j → settings.dryRun = false →
          w.host.IsDisposable j.mountDir := by
  cases hadm : admission w.host source settings none with
  | error f =>
    have hup : ∀ programs, (update source settings none programs w).1 = .error f := by
      intro programs
      rw [update_eq_admission, hadm]
    simp only [hup, isOrderly_error, reduceCtorEq, false_imp_iff, implies_true, and_true]
    exact ⟨fun ho => ho failing quiet_failing, fun ho _ _ => ho⟩
  | ok j =>
    simp only [isOrderly_ok, true_and, Except.ok.injEq, forall_eq']
    cases hdry : settings.dryRun with
    | false => simpa using admitted_orderly_iff hdry hadm
    | true =>
      -- a dry update ends well whatever the programs are
      obtain ⟨image, -, -, -, hj⟩ := admission_eq_ok.1 hadm
      obtain ⟨m, b, t, -, -, -, hjob⟩ := Settings.job_eq_ok.1 hj
      rcases Settings.dry_or_live_of_job hj with hdry' | hlive
      · obtain ⟨records, hwrites, -⟩ := Job.writes_carryOut hdry'
        have hup : ∀ programs, (update source settings none programs w).1 =
            .ok (j.placement .mounted) := by
          intro programs
          rw [update_eq_admission, hadm]
          exact (hwrites programs w).1
        simp [hup]
      · cases hjob
        cases hdry.symm.trans hlive.job

theorem admission_eq_ok_iff {h : Host} (hi : settings.imagePath = .ok image)
    (hm : settings.mountDir = .ok d) (hd : settings.destDir = .ok dest) :
    admission h source settings none = .ok j ↔
      h.LeadsToFile source ∧ h.LeadsToFile image ∧ ∃ b, settings.useSudo = .ok b ∧
        ⟨source, image, d, dest, ⟨b, settings.dryRun⟩, settings.dryRun⟩ = j := by
  have hfile : ∀ p, h.isFile p = .ok true ↔ h.LeadsToFile p := fun _ => Host.isFile_eq_ok_true
  rw [admission_eq_ok, hi]
  simp only [Except.ok.injEq, exists_eq_left', hfile, Settings.job_eq_map hm hd]
  cases settings.useSudo <;> simp [Except.map]

/-- An update whose paths are texts fails, with quiet programs, only with failures of its own,
exactly if these hold: the source can be followed; if it is a file, the image can be followed; if
that is a file too, the word on `sudo` can be read; and then, unless the run is dry, the scratch
directory is disposable. -/
theorem update_orderly_iff (hi : settings.imagePath = .ok image) (hm : settings.mountDir = .ok d)
    (hd : settings.destDir = .ok dest) :
    (∀ programs, Quiet programs → IsOrderly (update source settings none programs w).1) ↔
      ¬w.host.IsTooLong source ∧ (w.host.LeadsToFile source →
        ¬w.host.IsTooLong image ∧ (w.host.LeadsToFile image →
          (∀ v, settings.useSudo ≠ .error (.value v)) ∧
            ∀ b, settings.useSudo = .ok b → settings.dryRun = false → w.host.IsDisposable d)) := by
  rw [update_orderly_iff_admission, admission_orderly_iff hi hm hd]
  simp only [admission_eq_ok_iff hi hm hd]
  constructor
  · rintro ⟨⟨hs, hrest⟩, hgone⟩
    exact ⟨hs, fun hfile => ⟨(hrest hfile).1, fun hfile' =>
      ⟨(hrest hfile).2 hfile', fun b hb => hgone _ ⟨hfile, hfile', b, hb, rfl⟩⟩⟩⟩
  · rintro ⟨hs, hrest⟩
    refine ⟨⟨hs, fun hfile => ⟨(hrest hfile).1, fun hfile' => ((hrest hfile).2 hfile').1⟩⟩, ?_⟩
    rintro j ⟨hfile, hfile', b, hb, rfl⟩
    exact ((hrest hfile).2 hfile').2 b hb

end

/-- With the usual settings, and nothing where the scratch directory is to be, an update is in
order. -/
theorem update_orderly_usual :
    let w := World.untouched .workbench
    Settings.empty.imagePath = .ok (Path.ofString "disk.img") ∧
      Settings.empty.mountDir = .ok (Path.ofString "mnt") ∧ Settings.empty.destDir = .ok "/sbin" ∧
      ∀ programs, Quiet programs →
        IsOrderly (update (Path.ofString "app.bin") .empty none programs w).1 := by
  intro w
  have hi : Settings.empty.imagePath = .ok (Path.ofString "disk.img") :=
    eq_ok_of_toOption (by decide +kernel)
  have hm : Settings.empty.mountDir = .ok (Path.ofString "mnt") :=
    eq_ok_of_toOption (by decide +kernel)
  have hd : Settings.empty.destDir = .ok "/sbin" := eq_ok_of_toOption (by decide +kernel)
  refine ⟨hi, hm, hd, (update_orderly_iff hi hm hd).2 ?_⟩
  refine ⟨Host.not_isTooLong (by decide +kernel), fun _ =>
    ⟨Host.not_isTooLong (by decide +kernel), fun _ => ⟨?_, fun _ _ _ => ?_⟩⟩⟩
  · intro v hv
    cases hv
  · exact Host.isDisposable_iff.2 ⟨by decide +kernel, eq_ok_of_toOption (by decide +kernel)⟩

/-- With the usual settings, a link to a directory where the scratch directory is to be makes an
update fail with a refusal of the host. -/
theorem update_escapes_link :
    let h : Host := ⟨⟨[(["app.bin"], .file 0 [7]), (["disk.img"], .file 1 [1, 2]),
      (["real"], .directory), (["mnt"], .link "real")], 2⟩, []⟩
    Settings.empty.imagePath = .ok (Path.ofString "disk.img") ∧
      Settings.empty.mountDir = .ok (Path.ofString "mnt") ∧ Settings.empty.destDir = .ok "/sbin" ∧
      Quiet failing ∧
      ¬IsOrderly (update (Path.ofString "app.bin") .empty none failing (World.untouched h)).1 := by
  intro h
  refine ⟨eq_ok_of_toOption (by decide +kernel), eq_ok_of_toOption (by decide +kernel),
    eq_ok_of_toOption (by decide +kernel), quiet_failing, by decide +kernel⟩

end FatInstall
