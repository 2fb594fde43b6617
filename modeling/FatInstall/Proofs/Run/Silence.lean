import FatInstall.Proofs.Run.Admission
import FatInstall.Program

/-!
# What is said before and after an update

Beside the update the program sets up its journal and reports how the update ended. Without a log
file to open this is silent: records and complaints are all that comes of it.

* `World.Silent`: nothing but such lines was added.
* `Program.admission`: the job that a command line asks for, or what forbids it.
* `Program.run_eq_report`: a run reports what came of the command line.
* `Program.run_of_refused`: a run that is forbidden is silent, and says why.
-/

namespace FatInstall

/-- Is the second world the first one with records and complaints added, and its host the same
apart from the logs? -/
def World.Silent (w w' : World) : Prop :=
  w'.journal.openLogs = w.journal.openLogs ∧
    Host.SameButLogs w.journal.openLogs w.host w'.host ∧
      ∃ added, w'.trace = w.trace ++ added ∧ actsOf added = []

/-- Writing a record always succeeds. -/
theorem Run.write_eq (r : Journal.Record) (programs : Programs) (w : World) :
    write r programs w = (.ok (), (write r programs w).2) := by
  unfold write
  split <;> rfl

theorem outputOf_append (t u : List Event) : outputOf (t ++ u) = outputOf t ++ outputOf u := by
  unfold outputOf Text.join
  rw [List.map_append, List.flatMap_append]
  rfl

theorem outputOf_of_actsOf {added : List Event} (h : actsOf added = []) :
    outputOf added = .empty := by
  induction added with
  | nil => rfl
  | cons e added ih =>
    cases e with
    | logged _ | complained _ => exact ih h
    | _ => cases h

namespace World

variable {w w' w'' : World}

theorem Silent.refl (w : World) : w.Silent w :=
  ⟨rfl, rfl, [], (List.append_nil _).symm, rfl⟩

theorem Silent.trans (h : w.Silent w') (h' : w'.Silent w'') : w.Silent w'' := by
  obtain ⟨hl, hh, added, ht, ha⟩ := h
  obtain ⟨hl', hh', more, ht', ha'⟩ := h'
  rw [hl] at hh'
  refine ⟨hl'.trans hl, hh'.trans hh, added ++ more, ?_, ?_⟩
  · rw [ht', ht, List.append_assoc]
  · rw [actsOf_append, ha, ha', List.append_nil]

/-- What writing a record adds: the journal stays, and no act is added. -/
theorem added_of_write (r : Journal.Record) (programs : Programs) (w : World) :
    (Run.write r programs w).2.journal = w.journal ∧
      Host.SameButLogs w.journal.openLogs w.host (Run.write r programs w).2.host ∧
        ∃ added, (Run.write r programs w).2.trace = w.trace ++ added ∧ actsOf added = [] := by
  let s : Scene := ⟨programs, w.journal.openLogs, fun _ _ => True, fun _ _ _ => trivial⟩
  let h := w.host.blank w.journal.openLogs
  have hwrite : (Run.write r).Obeys s h fun acts _ h' => acts = [] ∧ h' = h :=
    Run.obeys_write ⟨rfl, rfl⟩
  obtain ⟨added, ht, hj, -, ha, hh⟩ := hwrite w rfl rfl
  exact ⟨hj, hh, added, ht, ha⟩

theorem silent_write (r : Journal.Record) (programs : Programs) (w : World) :
    w.Silent (Run.write r programs w).2 := by
  obtain ⟨hj, hh, added, ht, ha⟩ := added_of_write r programs w
  exact ⟨congrArg Journal.openLogs hj, hh, added, ht, ha⟩

theorem silent_complain (line : Text) (programs : Programs) (w : World) :
    w.Silent (Run.complain line programs w).2 :=
  ⟨rfl, rfl, [_], rfl, rfl⟩

/-- What is silent with no log open leaves the host as it is, starts nothing and prints nothing. -/
theorem Silent.untouched (h : w.Silent w') (hlogs : w.journal.openLogs = []) :
    w'.host = w.host ∧ ∃ added, w'.trace = w.trace ++ added ∧ startsOf added = [] ∧
      outputOf added = .empty := by
  obtain ⟨-, hh, added, ht, ha⟩ := h
  rw [hlogs] at hh
  refine ⟨Host.sameButLogs_nil.1 hh, added, ht, ?_, outputOf_of_actsOf ha⟩
  rw [← startsOf_actsOf, ha]
  rfl

end World

/-! ## Setting up -/

/-- Without a log file to open, the journal is set up silently. -/
theorem Journal.configure_silent {requested : Given} (h : requested.word? = none)
    (threshold : Level) (console : Bool) (programs : Programs) (w : World) :
    ∃ path w', configure requested threshold console programs w = (.ok path, w') ∧ w.Silent w' := by
  unfold configure setUpBy
  rw [Run.bind_of_ok rfl, Run.bind_of_ok rfl]
  cases w.journal.setUp with
  | some path => exact ⟨path, _, rfl, rfl, rfl, [], (List.append_nil _).symm, rfl⟩
  | none =>
    simp only [Request.file?, h, Option.map_none, Option.filter_none]
    let threshold' : Journal := { w.journal with threshold }
    let w₁ : World := { w with journal := { threshold' with
      sinks := w.journal.sinks ++ if console then [.console] else [], setUp := some none } }
    let r : Journal.Record := ⟨.info, Journal.Channel.journal.name,
      "Logging initialized (requested=" ++ (requested.text : Text) ++ ", actual=" ++ "None" ++ ")",
      false⟩
    refine ⟨none, (Run.write r programs w₁).2, ?_, ?_⟩
    · refine (Run.bind_of_ok rfl).trans ((Run.bind_of_ok rfl).trans ?_)
      exact Run.bind_of_ok (Run.write_eq r programs w₁)
    · refine World.Silent.trans ?_ (World.silent_write r programs w₁)
      refine ⟨?_, rfl, [], (List.append_nil _).symm, rfl⟩
      cases console <;> simp [w₁, Journal.openLogs]

/-! ## The job of a command line -/

namespace Program

open CommandLine (Options)

variable {o : Options} {programs : Programs} {w : World}

/-- The settings that the command line names: those of a file, or none. -/
def namedSettings (o : Options) (h : Host) : Except Failure Settings :=
  match o.config.word? with
  | some path => Settings.load path h
  | none => .ok .empty

/-- The job that the command line asks for, or what forbids it. -/
def admission (o : Options) (h : Host) : Except Failure Job :=
  match o.files with
  | [file] => do
    let settings ← namedSettings o h
    FatInstall.admission h (Path.ofString file) (settings.withOverrides (changes o)) none
  | _ => .error (.update .usage)

theorem settingsOf_eq : settingsOf o programs w = (namedSettings o w.host, w) := by
  unfold settingsOf namedSettings
  cases o.config.word? <;> rfl

theorem perform_eq_admission :
    perform o none programs w = match admission o w.host with
      | .error f => (.error f, w)
      | .ok j => j.carryOut programs w := by
  unfold perform admission
  rcases o.files with _ | ⟨file, _ | ⟨file', files⟩⟩
  · rfl
  · rcases hs : namedSettings o w.host with f | settings
    · exact Run.bind_of_error (settingsOf_eq.trans (congrArg (·, w) hs))
    · exact (Run.bind_of_ok (settingsOf_eq.trans (congrArg (·, w) hs))).trans
        (update_eq_admission programs)
  · rfl

/-- How a run reports the end of what it performs: a status, or a failure that leaves it. -/
def report : Except Failure Placement → Except Failure Nat
  | .ok _ => .ok 0
  | .error (.update f) => .ok f.exitStatus
  | .error .interrupted => .ok statusInterrupted
  | .error f => .error f

section

variable {words : List String}

/-- Once its journal is set up, a run performs what the command line asks for, and reports silently.
The message of a failure of its own is the last that is said. -/
theorem run_of_configured {path : Option Text} {w' : World} (tools : Option Tools)
    (channel : Journal.Channel) (hparse : CommandLine.parse words = .ok o)
    (hconf : Journal.configure o.log (thresholdOf o.verbose) true programs w = (.ok path, w')) :
    let run := run words tools channel programs w
    let performed := perform o tools programs w'
    run.1 = report performed.1 ∧ performed.2.Silent run.2 ∧
      ∀ fault, performed.1 = .error (.update fault) →
        ∃ earlier, run.2.trace = earlier ++ [.complained (fault.message ++ "\n")] := by
  intro run performed
  have hread : readWords words programs w = (.ok o, w) := by
    unfold readWords
    rw [hparse]
    rfl
  have hattempt : Run.attempt (perform o tools) programs w' = (.ok performed.1, performed.2) := rfl
  unfold run Program.run
  rw [Run.bind_of_ok hread, Run.bind_of_ok hconf, Run.bind_of_ok hattempt]
  generalize performed.1 = res, performed.2 = w''
  rcases res with (f | _ | _ | _ | _ | _ | _) | p
  · -- a failure of the program's own is recorded, and told
    dsimp only
    rw [Run.bind_of_ok (Run.write_eq _ programs w''), Run.bind_of_ok rfl]
    refine ⟨rfl, (World.silent_write _ programs w'').trans (World.silent_complain _ programs _), ?_⟩
    rintro fault hf
    cases hf
    exact ⟨_, rfl⟩
  all_goals exact ⟨rfl, .refl w'', fun fault hf => by cases hf⟩

/-- A run without a log sets up silently, performs what the command line asks for, and reports
silently. -/
theorem run_eq_report (channel : Journal.Channel) (programs : Programs) (w : World)
    (hparse : CommandLine.parse words = .ok o) (hlog : o.log.word? = none) :
    ∃ w', w.Silent w' ∧
      (run words none channel programs w).1 = report (perform o none programs w').1 ∧
        (perform o none programs w').2.Silent (run words none channel programs w).2 := by
  obtain ⟨path, w', hconf, hsilent⟩ :=
    Journal.configure_silent hlog (thresholdOf o.verbose) true programs w
  obtain ⟨hres, hsilent', -⟩ := run_of_configured none channel hparse hconf
  exact ⟨w', hsilent, hres, hsilent'⟩

variable {channel : Journal.Channel}

/-- A run that is forbidden says why, and does nothing else. -/
theorem run_of_refused {f : Failure} (hparse : CommandLine.parse words = .ok o)
    (hlog : o.log.word? = none) (hlogs : w.journal.openLogs = [])
    (hf : admission o w.host = .error f) :
    (run words none channel programs w).1 = report (.error f) ∧
      w.Silent (run words none channel programs w).2 := by
  obtain ⟨w', hsilent, hres, hsilent'⟩ := run_eq_report channel programs w hparse hlog
  have hperform : perform o none programs w' = (.error f, w') := by
    rw [perform_eq_admission, (hsilent.untouched hlogs).1, hf]
  rw [hperform] at hres hsilent'
  exact ⟨hres, hsilent.trans hsilent'⟩

end

end Program

end FatInstall
