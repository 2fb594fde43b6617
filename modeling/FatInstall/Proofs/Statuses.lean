import FatInstall.Proofs.Decisions
import FatInstall.Proofs.Host.Files
import FatInstall.Proofs.Run.Rehearsal
import FatInstall.Proofs.Run.Silence
import FatInstall.World.Script

/-!
# What the low exit statuses promise

A status from 1 to 4 says that the command line, a settings file, the source or the image was found
wanting. These are looked at in this order, and before anything is done: with such a status nothing
was started or printed, and the host is as it was.

* `Settings.failsOnlyAs_load`: a settings file is rejected with a failure of the general kind, which
  has status 1, or is not readable at all.
* `Job.obeys_carryOut`: a job that is begun has none of the low statuses.
* `Program.run_statuses`: the promise, with what has no status: a settings file that cannot be read,
  and an input whose path is too long to be looked at.
-/

namespace FatInstall

/-! ## Settings files -/

/-- Is no failure in it an interrupt, and every one of the program's own of the general kind, which
has status 1? -/
def FailsGenerally {α : Type} (e : Except Failure α) : Prop :=
  ∀ f, e = .error f → f ≠ .interrupted ∧ ∀ fault, f = .update fault → fault.exitStatus = 1

/-- Is no failure in it an interrupt, and is every one of the program's own as described? -/
def FailsOnlyAs {α : Type} (P : UpdateFault → Prop) (e : Except Failure α) : Prop :=
  ∀ f, e = .error f → f ≠ .interrupted ∧ ∀ fault, f = .update fault → P fault

section

variable {α β : Type} {P : UpdateFault → Prop}

theorem failsOnlyAs_ok {a : α} : FailsOnlyAs P (.ok a) := by
  intro f hf
  cases hf

theorem failsOnlyAs_refused {e : Except Host.Refusal α} :
    FailsOnlyAs P (e.mapError Failure.refused) := by
  intro f hf
  cases e <;> cases hf
  exact ⟨nofun, nofun⟩

theorem failsOnlyAs_value {v : ValueFault} : FailsOnlyAs P (.error (.value v) : Except _ α) := by
  intro f hf
  cases hf
  exact ⟨nofun, nofun⟩

theorem failsOnlyAs_update {fault : UpdateFault} (h : P fault) :
    FailsOnlyAs P (.error (.update fault) : Except _ α) := by
  intro f hf
  cases hf
  refine ⟨nofun, fun fault' heq => ?_⟩
  cases heq
  exact h

theorem FailsOnlyAs.bind {e : Except Failure α} {k : α → Except Failure β}
    (he : FailsOnlyAs P e) (hk : ∀ a, FailsOnlyAs P (k a)) : FailsOnlyAs P (e >>= k) := by
  intro f hf
  cases e with
  | error g =>
    cases hf
    exact he f rfl
  | ok a => exact hk a f hf

theorem FailsOnlyAs.fail_if {c : Prop} [Decidable c] {f : UpdateFault}
    {k : Unit → Except Failure β} (hf : P f) (hk : FailsOnlyAs P (k ())) :
    FailsOnlyAs P (if c then .error (.update f) >>= k else k ()) := by
  split
  · exact failsOnlyAs_update hf
  · exact hk

end

namespace Settings

theorem failsOnlyAs_useSudo (s : Settings) : FailsOnlyAs (·.kind = .general) s.useSudo := by
  unfold useSudo privilegeOf
  split
  · exact failsOnlyAs_ok
  · exact failsOnlyAs_ok
  · exact failsOnlyAs_ok
  · split
    · exact failsOnlyAs_update rfl
    · exact failsOnlyAs_value

theorem failsOnlyAs_ofDocument (path : String) (v : Value) :
    FailsOnlyAs (·.kind = .general) (ofDocument path v) := by
  have hchecked : ∀ s : Settings,
      FailsOnlyAs (·.kind = .general) (do let _ ← s.useSudo; return s) :=
    fun s => (failsOnlyAs_useSudo s).bind fun _ => failsOnlyAs_ok
  unfold ofDocument
  cases v with
  | map entries => exact hchecked ⟨entries⟩
  | _ =>
    dsimp only
    split
    · exact failsOnlyAs_update rfl
    · exact hchecked empty

/-- A settings file is rejected with a failure of the general kind. -/
theorem failsOnlyAs_load (path : String) (h : Host) :
    FailsOnlyAs (·.kind = .general) (load path h) := by
  have htext : ∀ content, FailsOnlyAs (·.kind = .general) (textOf content) := by
    intro content
    unfold textOf
    split
    · exact failsOnlyAs_ok
    · exact failsOnlyAs_value
  have hread : ∀ text,
      FailsOnlyAs (·.kind = .general) ((Yaml.read text).mapError (failureOf path)) := by
    intro text
    rcases Yaml.read text with (_ | fault) | v
    · exact failsOnlyAs_update rfl
    · exact failsOnlyAs_value
    · exact failsOnlyAs_ok
  unfold load
  refine failsOnlyAs_refused.bind fun found => .fail_if rfl (.fail_if rfl ?_)
  refine failsOnlyAs_refused.bind fun content => (htext content).bind fun text => ?_
  exact (hread text).bind fun v => failsOnlyAs_ofDocument path v

end Settings

/-! ## Jobs that are begun -/

namespace Job

variable {j : Job}

theorem MountedDecision.exitStatus {xs : List Observation} {f : UpdateFault}
    (h : j.MountedDecision xs (.error f)) : f.exitStatus = 6 := by
  cases h <;> rfl

theorem OfflineDecision.exitStatus {xs : List Observation} {f : UpdateFault}
    (h : j.OfflineDecision xs (.error f)) : f.exitStatus = 5 := by
  cases h <;> rfl

/-- Once a job is begun, a failure of the program's own is about the copy or the mount. -/
theorem obeys_carryOut {s : Scene} {h : Host} (hj : j.IsLive) :
    j.carryOut.Obeys s h fun _ res _ => ∀ f, res = .error (.update f) → 5 ≤ f.exitStatus := by
  unfold carryOut
  refine Run.Obeys.after_note rfl rfl (Run.Obeys.bind (obeys_selectRoute hj) ?_ ?_)
  · rintro xs f m hs g hf
    cases hf
    exact (hs.ne_update).elim
  · intro xs route m _
    refine Run.Obeys.after_log ((obeys_runBy hj route).mono ?_)
    rintro acts res h' hc f rfl
    cases route with
    | mounted =>
      have hd : j.MountedDecision (observations acts) (.error f) := MountedCourse.decision hc
      have := hd.exitStatus
      omega
    | offline =>
      have hd : j.OfflineDecision (observations acts) (.error f) := OfflineCourse.decision hc
      have := hd.exitStatus
      omega

theorem carryOut_exitStatus (hj : j.IsDry ∨ j.IsLive) {programs : Programs} {w : World}
    {f : UpdateFault} (hf : (j.carryOut programs w).1 = .error (.update f)) : 5 ≤ f.exitStatus := by
  rcases hj with hj | hj
  · obtain ⟨records, hwrites, -⟩ := writes_carryOut hj
    cases hf.symm.trans (hwrites programs w).1
  · let s : Scene := ⟨programs, w.journal.openLogs, fun _ _ => True, fun _ _ _ => trivial⟩
    obtain ⟨-, -, -, -, hstatus⟩ := obeys_carryOut (s := s) hj w rfl rfl
    exact hstatus f hf

end Job

/-! ## Inputs -/

/-- A word without a dash at its start names the file. -/
theorem CommandLine.parse_singleton {word : String} (h : word.toList.head? ≠ some '-') :
    parse [word] = .ok { files := [word] } := by
  have hmark : word ≠ "--" := by
    rintro rfl
    exact h rfl
  simp [parse, readWords, readWord, hmark, h, readItems, Progress.takeFiles, filesOf, Item.word,
    bind, Except.bind, pure, Except.pure]

namespace Program

open CommandLine (Options)

variable {o : Options} {h : Host} {file : String} {f : Failure}

theorem admission_of_files (ho : o.files.length ≠ 1) : admission o h = .error (.update .usage) := by
  unfold admission
  split
  · next hfiles =>
    rw [hfiles] at ho
    exact (ho rfl).elim
  · rfl

theorem admission_of_settings (hfiles : o.files = [file]) (hs : namedSettings o h = .error f) :
    admission o h = .error f := by
  simp [admission, hfiles, hs, bind, Except.bind]

theorem admission_of_inputs {settings : Settings} {image : Path} (hfiles : o.files = [file])
    (hs : namedSettings o h = .ok settings)
    (hi : (settings.withOverrides (changes o)).imagePath = .ok image)
    (hc : checkInputs h (Path.ofString file) image = .error f) : admission o h = .error f := by
  simp [admission, FatInstall.admission, hfiles, hs, hi, hc, Run.mapError_ok, bind, Except.bind]

variable {words : List String} {channel : Journal.Channel} {programs : Programs} {w : World}

theorem failsOnlyAs_namedSettings (o : Options) (h : Host) :
    FailsOnlyAs (·.kind = .general) (namedSettings o h) := by
  unfold namedSettings
  split
  · exact Settings.failsOnlyAs_load _ _
  · exact failsOnlyAs_ok

theorem failsGenerally_namedSettings (o : Options) (h : Host) :
    FailsGenerally (namedSettings o h) := by
  intro f hf
  obtain ⟨hi, hkind⟩ := failsOnlyAs_namedSettings o h f hf
  refine ⟨hi, fun fault heq => ?_⟩
  rw [UpdateFault.exitStatus, hkind fault heq]
  rfl

theorem report_of_ne (hf : f ≠ .interrupted) (hown : ∀ fault, f ≠ .update fault) :
    report (.error f) = .error f := by
  cases f with
  | update fault => exact (hown fault rfl).elim
  | interrupted => exact (hf rfl).elim
  | _ => rfl

/-- The job of a command line is dry or live altogether. -/
theorem dry_or_live_of_admission {j : Job} {h : Host} (hj : admission o h = .ok j) :
    j.IsDry ∨ j.IsLive := by
  unfold admission at hj
  split at hj
  · rcases hs : namedSettings o h with f | settings <;> rw [hs] at hj
    · cases hj
    · obtain ⟨image, -, -, -, hset⟩ := admission_eq_ok.1 hj
      exact Settings.dry_or_live_of_job hset
  · cases hj

/-- A run that is not forbidden never ends with a status from 1 to 4. -/
theorem run_of_admitted {j : Job} {n : Nat} (hparse : CommandLine.parse words = .ok o)
    (hlog : o.log.word? = none) (hlogs : w.journal.openLogs = [])
    (hj : admission o w.host = .ok j) (hn : (run words none channel programs w).1 = .ok n) :
    n = 0 ∨ 5 ≤ n := by
  obtain ⟨w', hsilent, hres, -⟩ := run_eq_report channel programs w hparse hlog
  rw [perform_eq_admission, (hsilent.untouched hlogs).1, hj, hn] at hres
  dsimp only at hres
  cases hrun : (j.carryOut programs w').1 with
  | ok p =>
    rw [hrun] at hres
    exact .inl (Except.ok.inj hres)
  | error f =>
    rw [hrun] at hres
    right
    cases f with
    | update f =>
      rw [Except.ok.inj hres]
      exact Job.carryOut_exitStatus (dry_or_live_of_admission hj) hrun
    | interrupted =>
      rw [Except.ok.inj hres]
      decide
    | _ => cases hres

/-- A run without a log that ends with a status from 1 to 4 starts nothing, prints nothing and
leaves the host as it is. It ends with 2 whenever there is not exactly one file. With one file it
ends with 1 if the settings file is rejected, else with 3 if the source is no regular file, and else
with 4 if the image is none. There is no status for a settings file that cannot be read at all, nor
for an input whose path is too long: the run ends with the failure itself. -/
theorem run_statuses (hparse : CommandLine.parse words = .ok o) (hlog : o.log.word? = none)
    (hlogs : w.journal.openLogs = []) :
    let run := run words none channel programs w
    let tooLong (p : Path) : Failure := .refused (.system .nameTooLong p.text)
    (∀ n, run.1 = .ok n → 1 ≤ n → n ≤ 4 → run.2.host = w.host ∧ ∃ added,
      run.2.trace = w.trace ++ added ∧ startsOf added = [] ∧ outputOf added = .empty) ∧
    (o.files.length ≠ 1 → run.1 = .ok 2) ∧
    ∀ file, o.files = [file] →
      (∀ fault, namedSettings o w.host = .error (.update fault) → run.1 = .ok 1) ∧
      (∀ f, namedSettings o w.host = .error f → (∀ fault, f ≠ .update fault) → run.1 = .error f) ∧
      ∀ settings image, namedSettings o w.host = .ok settings →
        (settings.withOverrides (changes o)).imagePath = .ok image →
        let source := Path.ofString file
        (¬w.host.LeadsToFile source →
          (w.host.IsTooLong source → run.1 = .error (tooLong source)) ∧
          (¬w.host.IsTooLong source → run.1 = .ok 3)) ∧
        (w.host.LeadsToFile source → ¬w.host.LeadsToFile image →
          (w.host.IsTooLong image → run.1 = .error (tooLong image)) ∧
          (¬w.host.IsTooLong image → run.1 = .ok 4)) := by
  intro run tooLong
  have hrefused : ∀ {f}, admission o w.host = .error f → run.1 = report (.error f) :=
    fun hf => (run_of_refused hparse hlog hlogs hf).1
  refine ⟨?_, fun ho => hrefused (admission_of_files ho), fun file hfiles => ⟨?_, ?_, ?_⟩⟩
  · intro n hn h₁ h₄
    cases hadm : admission o w.host with
    | error f => exact (run_of_refused hparse hlog hlogs hadm).2.untouched hlogs
    | ok j =>
      have hstatus := run_of_admitted hparse hlog hlogs hadm hn
      omega
  · intro fault hf
    have hgeneral : fault.exitStatus = 1 :=
      (failsGenerally_namedSettings o w.host _ hf).2 fault rfl
    rw [hrefused (admission_of_settings hfiles hf), report, hgeneral]
  · intro f hf hown
    rw [hrefused (admission_of_settings hfiles hf)]
    exact report_of_ne (failsGenerally_namedSettings o w.host f hf).1 hown
  · intro settings image hs hi source
    have hinputs : ∀ {f}, checkInputs w.host source image = .error f → run.1 = report (.error f) :=
      fun hc => hrefused (admission_of_inputs hfiles hs hi hc)
    refine ⟨fun hsource => ⟨fun hlong => ?_, fun hlong => ?_⟩,
      fun hsource himage => ⟨fun hlong => ?_, fun hlong => ?_⟩⟩
    · exact hinputs (checkInputs_of_source_error (Host.isFile_of_isTooLong hlong))
    · exact hinputs (checkInputs_of_source (Host.isFile_of_not hsource hlong))
    · exact hinputs (checkInputs_of_image_error (Host.isFile_of_leadsToFile hsource)
        (Host.isFile_of_isTooLong hlong))
    · exact hinputs (checkInputs_of_image (Host.isFile_of_leadsToFile hsource)
        (Host.isFile_of_not himage hlong))

/-- With neither a source nor an image it is the source that is missed. -/
theorem run_statuses_nothingThere :
    let words := ["missing.bin", "--image", "missing.img"]
    let o : Options := { files := ["missing.bin"], image := .word "missing.img" }
    let w := World.untouched .workbench
    let run := run words none .program (Script.programs [] 0) w
    CommandLine.parse words = .ok o ∧ o.log.word? = none ∧ w.journal.openLogs = [] ∧
      ¬w.host.LeadsToFile (Path.ofString "missing.bin") ∧ run.1 = .ok 3 ∧
      run.2.host = w.host ∧ startsOf run.2.trace = [] ∧ outputOf run.2.trace = .empty := by
  intro words o w run
  have hparse : CommandLine.parse words = .ok o := eq_ok_of_toOption (by decide +kernel)
  have hfile : ¬w.host.LeadsToFile (Path.ofString "missing.bin") :=
    Host.not_leadsToFile (by decide +kernel)
  have hlong : ¬w.host.IsTooLong (Path.ofString "missing.bin") :=
    Host.not_isTooLong (by decide +kernel)
  obtain ⟨huntouched, -, hone⟩ :=
    @run_statuses o words .program (Script.programs [] 0) w hparse rfl rfl
  have himage : (Settings.empty.withOverrides (changes o)).imagePath =
      .ok (Path.ofString "missing.img") := eq_ok_of_toOption (by decide +kernel)
  have hstatus : run.1 = .ok 3 := (((hone _ rfl).2.2 _ _ rfl himage).1 hfile).2 hlong
  obtain ⟨hhost, added, ht, hstarts, hout⟩ := huntouched 3 hstatus (by decide) (by decide)
  have ht : run.2.trace = added := ht
  exact ⟨hparse, rfl, rfl, hfile, hstatus, hhost, ht ▸ hstarts, ht ▸ hout⟩

/-- A source whose name is longer than a name can be is no regular file, but the run does not end
with the status of a missing source. -/
theorem run_statuses_longName :
    let name := String.ofList (List.replicate 256 'a')
    let w := World.untouched .workbench
    ¬w.host.LeadsToFile (Path.ofString name) ∧
      (run [name] none .program (Script.programs [] 0) w).1 ≠ .ok 3 := by
  intro name w
  have hpath : Path.ofString name = Path.ofText (Text.ofList (List.replicate 256 'a')) :=
    congrArg (fun cs => Path.ofText (Text.ofList cs)) String.toList_ofList
  have hrefused : (w.host.isFile (Path.ofString name)).toOption = none := by
    rw [hpath]
    decide +kernel
  have hletter : name.toList.head? ≠ some '-' := by
    rw [String.toList_ofList]
    decide
  have himage : (Settings.empty.withOverrides (changes { files := [name] })).imagePath =
      .ok (Path.ofString "disk.img") := rfl
  constructor
  · apply Host.not_leadsToFile
    rw [hrefused]
    decide
  · cases hfile : w.host.isFile (Path.ofString name) with
    | ok b =>
      rw [hfile] at hrefused
      cases hrefused
    | error why =>
      have hadmission : admission { files := [name] } w.host = .error (.refused why) :=
        admission_of_inputs rfl rfl himage (checkInputs_of_source_error hfile)
      have hparse := CommandLine.parse_singleton hletter
      rw [(run_of_refused hparse rfl rfl hadmission).1]
      simp [report]

end Program

end FatInstall
