import FatInstall.Proofs.Run.Congruence
import FatInstall.Proofs.Statuses

/-!
# What the exit status says

A status is 0 exactly if the update has a result, and 130 exactly if the user interrupted it. Every
other status belongs to a failure of the program's own: it is the status of the failure's kind, and
the failure's message is the last that is said. That the image cannot be mounted is no such failure:
it chooses the way to take, and never leaves the choice.

* `Run.FailsAs`: what the failures of the program's own are that end a run.
* `Job.failsCongruence`: both ways into an image fail as one of two kinds, whatever the tools are.
* `Job.failsAs_selectRoute`: choosing the way fails as none.
* `outcomes_reported`: the property for updates and for the program as a whole.
-/

namespace FatInstall

namespace Run

variable {α β : Type} {P Q : UpdateFault → Prop}

/-- Is every failure of the program's own that can end the run as described? -/
def FailsAs (r : Run α) (P : UpdateFault → Prop) : Prop :=
  ∀ programs w fault, (r programs w).1 = .error (.update fault) → P fault

theorem FailsAs.mono {r : Run α} (hr : r.FailsAs P) (h : ∀ fault, P fault → Q fault) :
    r.FailsAs Q :=
  fun programs w fault hf => h fault (hr programs w fault hf)

theorem failsAs_of_ok {r : Run α} (h : ∀ programs w, ∃ a, (r programs w).1 = .ok a) :
    r.FailsAs P := by
  intro programs w fault hf
  obtain ⟨a, ha⟩ := h programs w
  cases ha.symm.trans hf

theorem failsAs_pure {a : α} : (pure a : Run α).FailsAs P := failsAs_of_ok fun _ _ => ⟨a, rfl⟩

theorem failsAs_fail {f : Failure} (h : ∀ fault, f = .update fault → P fault) :
    (fail f : Run α).FailsAs P := by
  intro programs w fault hf
  cases hf
  exact h fault rfl

theorem failsAs_update {fault : UpdateFault} (h : P fault) :
    (fail (.update fault) : Run α).FailsAs P :=
  failsAs_fail <| by
    rintro _ ⟨⟩
    exact h

theorem FailsAs.bind {r : Run α} {k : α → Run β} (hr : r.FailsAs P) (hk : ∀ a, (k a).FailsAs P) :
    (r >>= k).FailsAs P := by
  intro programs w fault hf
  rcases hrw : r programs w with ⟨g | a, w'⟩
  · rw [bind_of_error hrw] at hf
    cases hf
    exact hr programs w fault (congrArg Prod.fst hrw)
  · rw [bind_of_ok hrw] at hf
    exact hk a programs w' fault hf

/-- What a run fails with is seen by the one after it. -/
theorem failsAs_bind_attempt {r : Run α} {k : Except Failure α → Run β}
    (hk : ∀ programs w e, (r programs w).1 = e → (k e).FailsAs P) :
    (attempt r >>= k).FailsAs P := by
  intro programs w fault hf
  rcases hrw : r programs w with ⟨e, w'⟩
  have hattempt : attempt r programs w = (.ok e, w') := by
    simp only [attempt, hrw]
  rw [bind_of_ok hattempt] at hf
  exact hk programs w e (congrArg Prod.fst hrw) programs w' fault hf

theorem FailsAs.ite {c : Prop} [Decidable c] {r r' : Run α} (hr : c → r.FailsAs P)
    (hr' : ¬c → r'.FailsAs P) : (if c then r else r').FailsAs P := by
  split
  · next hc => exact hr hc
  · next hc => exact hr' hc

theorem failsAs_look {f : Host → Except Host.Refusal α} : (look f).FailsAs P := by
  intro programs w fault hf
  change (f w.host).mapError Failure.refused = .error (.update fault) at hf
  cases hw : f w.host <;> rw [hw] at hf <;> cases hf

theorem failsAs_change {f : Host → Except Host.Refusal α × Host} : (change f).FailsAs P := by
  intro programs w fault hf
  change (f w.host).1.mapError Failure.refused = .error (.update fault) at hf
  cases hw : (f w.host).1 <;> rw [hw] at hf <;> cases hf

theorem failsAs_note {e : Event} : (note e).FailsAs P := failsAs_of_ok fun _ _ => ⟨(), rfl⟩

theorem failsAs_write {r : Journal.Record} : (write r).FailsAs P :=
  failsAs_of_ok fun programs w => ⟨(), congrArg Prod.fst (write_eq r programs w)⟩

theorem failsAs_log {level : Journal.Level} {channel : Journal.Channel} {message : Text} :
    (log level channel message).FailsAs P :=
  failsAs_write

/-! ## Commands -/

theorem failsAs_logOutput {label text : String} : (Command.logOutput label text).FailsAs P :=
  .ite (fun _ => failsAs_pure) fun _ => failsAs_log

/-- A command fails with its own failure, or with one of its start. -/
theorem failsAs_command {argv : List Text} {mode : Command.Mode} :
    (Command.run argv mode).FailsAs P := by
  unfold Command.run
  refine failsAs_log.bind fun _ => .ite (fun _ => failsAs_pure) fun _ => ?_
  cases argv with
  | nil => exact failsAs_fail nofun
  | cons name rest =>
    have hstart : ∀ s, (start s).FailsAs P := fun _ => failsAs_of_ok fun _ _ => ⟨_, rfl⟩
    refine (hstart _).bind fun r => ?_
    split
    · -- there is no such command
      exact .ite (fun _ => failsAs_fail nofun) fun _ => failsAs_log.bind fun _ => failsAs_pure
    · exact failsAs_fail nofun
    · exact failsAs_fail nofun
    · exact failsAs_fail nofun
    · exact failsAs_logOutput.bind fun _ => failsAs_logOutput.bind fun _ =>
        .ite (fun _ => failsAs_fail nofun) fun _ => failsAs_pure

end Run

/-! ## Jobs -/

namespace Job

open Run

/-- Is it about the copy, or about what has to be done around it? -/
def IsAboutCopy (fault : UpdateFault) : Prop :=
  fault.kind = .mountedWrite ∨ fault.kind = .offlineWrite

/-- What the runs of a job fail as is respected by the ways to put them together. -/
def failsCongruence (j : Job) : j.Congruence j.tools where
  Rel r _ := r.FailsAs IsAboutCopy
  May f := ∀ fault, f = .update fault → IsAboutCopy fault
  may_own := by
    rintro f hkind _ ⟨⟩
    exact hkind
  pure _ := failsAs_pure
  fail _ hm := failsAs_fail hm
  bind hr hk := hr.bind hk
  attempt hr hok hf := failsAs_bind_attempt fun programs w e he => by
    cases e with
    | ok a => exact hok a
    | error f => exact hf f f (.same f) fun fault heq => hr programs w fault (heq ▸ he)
  print _ := failsAs_note
  seek := failsAs_look.bind fun _ => failsAs_note.bind fun _ => failsAs_pure
  discard := by
    rw [discard_eq]
    exact failsAs_look.bind fun _ => failsAs_note.bind fun _ =>
      .ite (fun _ => failsAs_change) fun _ => failsAs_change
  log _ := failsAs_log
  tool _ hk := failsAs_command.bind fun x => hk x x rfl

/-- A mount that is not there is all that probing finds wrong. -/
theorem failsAs_probeMount (j : Job) : j.probeMount.FailsAs (·.kind = .mountUnavailable) := by
  have hcreate : j.createScratchDir.FailsAs (·.kind = .mountUnavailable) :=
    .ite (fun _ => failsAs_log) fun _ => failsAs_note.bind fun _ => failsAs_change
  have hmount : (j.tools.mount j.image j.mountDir).FailsAs (·.kind = .mountUnavailable) :=
    failsAs_command.bind fun _ =>
      .ite (fun _ => failsAs_log.bind fun _ => failsAs_pure) fun _ => failsAs_pure
  have hactive : (j.tools.isMountpoint j.mountDir).FailsAs (·.kind = .mountUnavailable) :=
    failsAs_command.bind fun _ => failsAs_pure
  unfold probeMount
  refine failsAs_bind_attempt fun programs w e he => ?_
  split
  · exact .ite (fun _ => failsAs_update rfl) fun _ => failsAs_fail nofun
  · next f _ _ => exact failsAs_fail fun fault heq => hcreate programs w fault (heq ▸ he)
  · refine hmount.bind fun _ => .ite (fun _ => failsAs_update rfl) fun _ => ?_
    refine hactive.bind fun _ => .ite (fun _ => failsAs_update rfl) fun _ => failsAs_pure

/-- Choosing the way fails as nothing of the program's own: a mount that is not there chooses the
way that does without one. -/
theorem failsAs_selectRoute (j : Job) : j.selectRoute.FailsAs fun _ => False := by
  unfold selectRoute
  refine failsAs_bind_attempt fun programs w e he => ?_
  split
  · exact failsAs_pure
  · next fault =>
    refine .ite (fun _ => failsAs_log.bind fun _ => failsAs_pure) fun hkind => ?_
    exact (hkind (j.failsAs_probeMount programs w fault he)).elim
  · next hown => exact failsAs_fail fun fault heq => (hown fault heq).elim

theorem failsAs_carryOut (j : Job) : j.carryOut.FailsAs IsAboutCopy :=
  failsAs_note.bind fun _ => (j.failsAs_selectRoute.mono fun _ => False.elim).bind fun route =>
    failsAs_log.bind fun _ => j.failsCongruence.runBy route

end Job

/-! ## Updates -/

section

variable {source image : Path} {settings : Settings} {tools : Option Tools} {h : Host}

theorem failsOnlyAs_checkInputs :
    FailsOnlyAs (·.kind ≠ .mountUnavailable) (checkInputs h source image) := by
  unfold checkInputs
  refine failsOnlyAs_refused.bind fun _ => .fail_if nofun ?_
  refine failsOnlyAs_refused.bind fun _ => ?_
  split
  · exact failsOnlyAs_update nofun
  · exact failsOnlyAs_ok

theorem failsOnlyAs_job :
    FailsOnlyAs (·.kind ≠ .mountUnavailable) (settings.job source image tools) := by
  have hvalue : ∀ {α : Type} (e : Except ValueFault α),
      FailsOnlyAs (·.kind ≠ .mountUnavailable) (e.mapError Failure.value) := by
    rintro α (v | a)
    · exact failsOnlyAs_value
    · exact failsOnlyAs_ok
  have htools : FailsOnlyAs (·.kind ≠ .mountUnavailable) settings.tools := by
    refine FailsOnlyAs.bind (fun f hf => ?_) fun _ => failsOnlyAs_ok
    obtain ⟨hi, hkind⟩ := settings.failsOnlyAs_useSudo f hf
    exact ⟨hi, fun fault heq => by simp [hkind fault heq]⟩
  unfold Settings.job
  refine (hvalue _).bind fun m => (hvalue _).bind fun d => ?_
  cases tools with
  | none => exact htools.bind fun t => failsOnlyAs_ok
  | some t => exact failsOnlyAs_ok

theorem failsOnlyAs_admission :
    FailsOnlyAs (·.kind ≠ .mountUnavailable) (admission h source settings tools) := by
  unfold admission
  rcases settings.imagePath with v | image
  · exact failsOnlyAs_value
  · exact failsOnlyAs_checkInputs.bind fun _ => failsOnlyAs_job

theorem failsAs_update : (update source settings tools).FailsAs (·.kind ≠ .mountUnavailable) := by
  intro programs w fault hf
  rw [update_eq_admission] at hf
  cases hj : admission w.host source settings tools with
  | error g =>
    rw [hj] at hf
    cases hf
    exact (failsOnlyAs_admission _ hj).2 fault rfl
  | ok j =>
    rw [hj] at hf
    rcases j.failsAs_carryOut programs w fault hf with hkind | hkind <;> simp [hkind]

end

/-! ## Programs -/

namespace Program

open CommandLine (Options)
open Run

variable {o : Options} {tools : Option Tools} {programs : Programs} {w : World}

/-- Does the update that the command line asks for begin, in a world whose journal is set up, and
end with the outcome? -/
def UpdateEnds (o : Options) (programs : Programs) (w : World) (res : Except Failure Placement) :
    Prop :=
  ∃ file settings, o.files = [file] ∧ namedSettings o w.host = .ok settings ∧
    (update (Path.ofString file) (settings.withOverrides (changes o)) none programs w).1 = res

theorem perform_of_files (hfiles : ∀ file, o.files ≠ [file]) :
    perform o tools programs w = (.error (.update .usage), w) := by
  unfold perform
  rcases hfile : o.files with _ | ⟨file, _ | ⟨file', files⟩⟩
  · rfl
  · exact (hfiles file hfile).elim
  · rfl

theorem perform_of_file {file : String} (hfile : o.files = [file]) :
    perform o tools programs w = match namedSettings o w.host with
      | .error f => (.error f, w)
      | .ok settings =>
        update (Path.ofString file) (settings.withOverrides (changes o)) tools programs w := by
  unfold perform
  rw [hfile]
  rcases hs : namedSettings o w.host with f | settings
  · exact bind_of_error (settingsOf_eq.trans (congrArg (·, w) hs))
  · exact bind_of_ok (settingsOf_eq.trans (congrArg (·, w) hs))

/-- What is performed ends with a result, or with an interrupt, exactly if the update does. -/
theorem perform_eq_iff {res : Except Failure Placement}
    (hres : ∀ f, res = .error f → f = .interrupted) :
    (perform o none programs w).1 = res ↔ UpdateEnds o programs w res := by
  have hearly : ∀ f, f ≠ .interrupted → Except.error f ≠ res :=
    fun f hf h => hf (hres f h.symm)
  unfold UpdateEnds
  by_cases hfiles : ∃ file, o.files = [file]
  · obtain ⟨file, hfile⟩ := hfiles
    rw [perform_of_file hfile]
    rcases hs : namedSettings o w.host with f | settings
    · simpa [hfile] using hearly f (failsOnlyAs_namedSettings o w.host f hs).1
    · simp [hfile]
  · rw [perform_of_files (not_exists.1 hfiles)]
    refine iff_of_false (hearly (.update .usage) nofun) ?_
    rintro ⟨file, settings, hfile, -⟩
    exact hfiles ⟨file, hfile⟩

theorem failsAs_perform : (perform o tools).FailsAs (·.kind ≠ .mountUnavailable) := by
  unfold perform
  split
  · refine FailsAs.bind (fun programs w fault hf => ?_) fun settings => FatInstall.failsAs_update
    rw [settingsOf_eq] at hf
    rw [(failsOnlyAs_namedSettings o w.host _ hf).2 fault rfl]
    exact nofun
  · exact failsAs_fail fun fault heq => by
      cases heq
      exact nofun

/-- The status of every kind of failure that is reported. -/
def statuses : List (FaultKind × Nat) :=
  [(.usage, 2), (.sourceMissing, 3), (.imageMissing, 4), (.offlineWrite, 5), (.mountedWrite, 6),
    (.general, 1)]

theorem mem_statuses {fault : UpdateFault} (h : fault.kind ≠ .mountUnavailable) :
    (fault.kind, fault.exitStatus) ∈ statuses := by
  unfold UpdateFault.exitStatus
  generalize fault.kind = kind at h
  cases kind with
  | mountUnavailable => exact (h rfl).elim
  | _ => decide

theorem bounds_of_mem_statuses {kind : FaultKind} {n : Nat} (h : (kind, n) ∈ statuses) :
    1 ≤ n ∧ n ≤ 6 := by
  have hall : ∀ entry ∈ statuses, 1 ≤ entry.2 ∧ entry.2 ≤ 6 := by decide
  exact hall _ h

/-- What a status says of the outcome that it reports. -/
theorem report_eq_ok {res : Except Failure Placement} {n : Nat} (h : report res = .ok n)
    (hres : ∀ fault, res = .error (.update fault) → fault.kind ≠ .mountUnavailable) :
    (n = 0 ↔ ∃ p, res = .ok p) ∧ (n = 130 ↔ res = .error .interrupted) ∧
      (n ≠ 0 → n ≠ 130 → ∃ fault, res = .error (.update fault) ∧ (fault.kind, n) ∈ statuses) := by
  rcases res with f | p
  · cases f with
    | update fault =>
      cases h
      have hmem := mem_statuses (hres fault rfl)
      have hbounds := bounds_of_mem_statuses hmem
      refine ⟨?_, ?_, fun _ _ => ⟨fault, rfl, hmem⟩⟩
      · simp only [reduceCtorEq, exists_false, iff_false]
        omega
      · simp only [Except.error.injEq, reduceCtorEq, iff_false]
        omega
    | interrupted =>
      cases h
      simp [statusInterrupted]
    | _ => cases h
  · cases h
    simp

theorem failsAs_configure {requested : Given} {threshold : Journal.Level} {console : Bool} {P} :
    (Journal.configure requested threshold console).FailsAs P := by
  have hmodify : ∀ f, (Journal.modifyJournal f).FailsAs P := fun f =>
    failsAs_of_ok fun _ _ => ⟨(), rfl⟩
  have hbefore : Journal.setUpBefore.FailsAs P := failsAs_of_ok fun _ w => ⟨w.journal.setUp, rfl⟩
  have htail : ∀ f message path, FailsAs (do
      Journal.modifyJournal f
      Run.log .info .journal message
      return path : Run (Option Text)) P :=
    fun f _ _ => (hmodify f).bind fun _ => failsAs_log.bind fun _ => failsAs_pure
  have hopen : ∀ path, (Journal.openLog path).FailsAs P := by
    intro path
    refine failsAs_bind_attempt fun programs w e he => ?_
    split
    · exact failsAs_pure
    · exact .ite (fun _ => failsAs_fail nofun) fun _ => failsAs_look.bind fun _ =>
        failsAs_change.bind fun _ => failsAs_pure
    · refine failsAs_fail fun fault heq => ?_
      exact (failsAs_change.bind fun _ => failsAs_change) programs w fault (heq ▸ he)
  unfold Journal.configure Journal.setUpBy
  refine (hmodify _).bind fun _ => hbefore.bind fun before => ?_
  split
  · exact failsAs_pure
  · dsimp only
    split
    · exact (hopen _).bind fun _ => failsAs_pure.bind fun _ => htail _ _ _
    · exact failsAs_pure.bind fun _ => htail _ _ _

/-- The program reports the failures of its own, so that none of them leaves it. -/
theorem failsAs_run {words : List String} {channel : Journal.Channel} :
    (run words tools channel).FailsAs fun _ => False := by
  have hread : (readWords words).FailsAs fun _ => False := by
    unfold readWords
    split
    · exact failsAs_pure
    · exact failsAs_note.bind fun _ => failsAs_fail nofun
    · exact failsAs_note.bind fun _ => failsAs_fail nofun
  unfold run
  refine hread.bind fun o => failsAs_configure.bind fun _ => ?_
  refine failsAs_bind_attempt fun programs w e _ => ?_
  split
  · exact failsAs_pure
  · exact failsAs_write.bind fun _ => failsAs_note.bind fun _ => failsAs_pure
  · exact failsAs_pure
  · next f hown _ _ => exact failsAs_fail fun fault heq => (hown fault heq).elim

end Program

/-- A run whose command line is understood and whose journal is set up ends with the status 0
exactly if the update has a result, with 130 exactly if it is interrupted, and otherwise with the
status of the kind of a failure of the program's own, whose message is the last that is said. No
update fails because the image cannot be mounted; choosing the way fails as nothing of the program's
own at all, and neither does the program. -/
theorem outcomes_reported (programs : Programs) :
    (∀ words o channel w path w', CommandLine.parse words = .ok o →
      Journal.configure o.log (Program.thresholdOf o.verbose) true programs w = (.ok path, w') →
      let run := Program.run words none channel programs w
      ∀ n, run.1 = .ok n →
        (n = 0 ↔ ∃ p, Program.UpdateEnds o programs w' (.ok p)) ∧
        (n = 130 ↔ Program.UpdateEnds o programs w' (.error .interrupted)) ∧
        (n ≠ 0 → n ≠ 130 → ∃ fault earlier,
          (Program.perform o none programs w').1 = .error (.update fault) ∧
          (fault.kind, n) ∈ Program.statuses ∧
          run.2.trace = earlier ++ [.complained (fault.message ++ "\n")])) ∧
    (∀ source settings tools w fault,
      (update source settings tools programs w).1 = .error (.update fault) →
        fault.kind ≠ .mountUnavailable) ∧
    (∀ (j : Job) w fault, (j.selectRoute programs w).1 ≠ .error (.update fault)) ∧
    ∀ words tools channel w fault,
      (Program.run words tools channel programs w).1 ≠ .error (.update fault) := by
  refine ⟨?_, fun source settings tools w fault h => failsAs_update programs w fault h,
    fun j w fault h => j.failsAs_selectRoute programs w fault h,
    fun words tools channel w fault h => Program.failsAs_run programs w fault h⟩
  intro words o channel w path w' hparse hconf run n hn
  obtain ⟨hres, -, hsaid⟩ := Program.run_of_configured none channel hparse hconf
  have hok : ∀ p, _ ↔ _ := fun p =>
    @Program.perform_eq_iff o programs w' (.ok p) nofun
  have hint := @Program.perform_eq_iff o programs w' (.error .interrupted) (by simp)
  have hkind := @Program.failsAs_perform o none programs w'
  rw [← hint]
  simp only [← hok]
  obtain ⟨hzero, hinterrupted, hother⟩ := Program.report_eq_ok (hres.symm.trans hn) hkind
  refine ⟨hzero, hinterrupted, fun h h' => ?_⟩
  obtain ⟨fault, hfault, hmem⟩ := hother h h'
  obtain ⟨earlier, ht⟩ := hsaid fault hfault
  exact ⟨fault, earlier, hfault, hmem, ht⟩

/-- With no FAT tools there the image cannot be edited: the status is 5. An update without a source
fails as that. -/
theorem outcomes_reported_noTools :
    let programs := Script.programs
      [("mountpoint", [⟨[], .exits 1 "" ""⟩]), ("mcopy", [⟨[], .missing⟩])] 0
    let w := World.untouched .workbench
    let words := ["app.bin"]
    let o : CommandLine.Options := { files := ["app.bin"] }
    let set := Journal.configure o.log (Program.thresholdOf o.verbose) true programs w
    let main := Program.run words none .program programs w
    let missing := UpdateFault.sourceMissing (Path.ofString "missing.bin")
    CommandLine.parse words = .ok o ∧ set.1 = .ok none ∧ main.1 = .ok 5 ∧
      (∃ fault earlier, (Program.perform o none programs set.2).1 = .error (.update fault) ∧
        (fault.kind, 5) ∈ Program.statuses ∧
          main.2.trace = earlier ++ [.complained (fault.message ++ "\n")]) ∧
      (update (Path.ofString "missing.bin") .empty none programs w).1 = .error (.update missing) ∧
      missing.kind ≠ .mountUnavailable := by
  intro programs w words o set main missing
  have hparse : CommandLine.parse words = .ok o := eq_ok_of_toOption (by decide +kernel)
  have hset : set.1 = .ok none := eq_ok_of_toOption (by decide +kernel)
  have hmain : main.1 = .ok 5 := eq_ok_of_toOption (by decide +kernel)
  have hsource : w.host.isFile (Path.ofString "missing.bin") = .ok false :=
    eq_ok_of_toOption (by decide +kernel)
  have hmissing : (update (Path.ofString "missing.bin") .empty none programs w).1 =
      .error (.update missing) := by
    have himage : Settings.empty.imagePath = .ok (Path.ofString "disk.img") :=
      eq_ok_of_toOption (by decide +kernel)
    rw [update_eq_admission]
    simp [admission, himage, checkInputs_of_source hsource, Run.mapError_ok, bind, Except.bind,
      missing]
  obtain ⟨hrun, hupdate, -⟩ := outcomes_reported programs
  obtain ⟨-, -, hstatus⟩ :=
    hrun words o .program w none set.2 hparse (Prod.ext hset rfl) 5 hmain
  exact ⟨hparse, hset, hmain, hstatus (by decide) (by decide), hmissing,
    hupdate _ _ _ w missing hmissing⟩

end FatInstall
