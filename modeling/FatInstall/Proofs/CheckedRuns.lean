import FatInstall.Proofs.Run.Calls
import FatInstall.Proofs.Run.Silence
import FatInstall.World.Script

/-!
# Commands that are checked, and commands that are not

A command is announced, started once, and what it wrote is kept, whether its success is checked or
not. The two ways differ in how they deliver a failure: what one reports as a result with its
status, the other ends the run with.

* `Command.run_live`: what comes of a command that is started.
* `Command.modes_agree`: the checked result is the unchecked one, or its failure.
-/

namespace FatInstall.Command

variable {words : List Text} {programs : Programs} {w : World}

/-! ## Commands that are started -/

theorem log_eq (level : Journal.Level) (channel : Journal.Channel) (message : Text)
    (programs : Programs) (w : World) : Run.log level channel message programs w =
      (.ok (), (Run.log level channel message programs w).2) :=
  Run.write_eq _ programs w

/-- The start of a command. -/
def Mode.start (mode : Mode) (words : List Text) : Start := ⟨words, mode.input, mode.cwd, mode.env⟩

/-- The world in which the command was announced. -/
def announced (words : List Text) (programs : Programs) (w : World) : World :=
  (Run.log .info .command ("CMD " ++ Shell.render words) programs w).2

theorem log_announced (words : List Text) (programs : Programs) (w : World) :
    Run.log .info .command ("CMD " ++ Shell.render words) programs w =
      (.ok (), announced words programs w) :=
  log_eq _ _ _ programs w

theorem silent_announced (words : List Text) (programs : Programs) (w : World) :
    w.Silent (announced words programs w) :=
  World.silent_write _ programs w

/-- What the programs of the host do with the command. -/
def replyTo (mode : Mode) (words : List Text) (programs : Programs) (w : World) : Reply × Host :=
  let v := announced words programs w
  programs (startsOf v.trace) (mode.start words) v.host

/-- The world in which the command was started. -/
def started (mode : Mode) (words : List Text) (programs : Programs) (w : World) : World :=
  let v := announced words programs w
  let (reply, host) := replyTo mode words programs w
  { v with host, trace := v.trace ++ [.started (mode.start words) reply] }

theorem logOutput_silent (label text : String) (programs : Programs) (w : World) :
    ∃ v, logOutput label text programs w = (.ok (), v) ∧ w.Silent v := by
  unfold logOutput
  split
  · exact ⟨w, rfl, .refl w⟩
  · exact ⟨_, Run.write_eq _ programs w, World.silent_write _ programs w⟩

theorem run_dry (mode : Mode) (hdry : mode.dryRun = true) : run words mode programs w =
    (.ok ⟨words, 0, "", ""⟩, announced words programs w) := by
  unfold run
  rw [Run.bind_of_ok (log_announced _ programs w), if_pos hdry]
  rfl

theorem run_nil (mode : Mode) (hdry : mode.dryRun = false) :
    (run [] mode programs w).1 = .error .emptyCommand := by
  unfold run
  rw [Run.bind_of_ok (log_announced _ programs w), if_neg (by simp [hdry])]
  rfl

/-- A command that is started is answered as its mode says, and nothing but records follows. -/
theorem run_live (mode : Mode) (hdry : mode.dryRun = false) (hwords : words ≠ []) :
    (run words mode programs w).1 =
      ((replyTo mode words programs w).1.result words).bind mode.settle ∧
    (started mode words programs w).Silent (run words mode programs w).2 := by
  obtain ⟨name, rest, rfl⟩ := List.exists_cons_of_ne_nil hwords
  have hstart : Run.start ⟨name :: rest, mode.input, mode.cwd, mode.env⟩ programs
      (announced (name :: rest) programs w) =
      (.ok (replyTo mode (name :: rest) programs w).1,
        started mode (name :: rest) programs w) := rfl
  unfold run
  rw [Run.bind_of_ok (log_announced _ programs w), if_neg (by simp [hdry])]
  dsimp only
  rw [Run.bind_of_ok hstart]
  generalize (replyTo mode (name :: rest) programs w).1 = reply,
    started mode (name :: rest) programs w = v
  rcases reply with ⟨status, out, err⟩ | ⟨⟨cause, path⟩ | _ | _ | _⟩ | _ | _
  · obtain ⟨v₁, hout, hs₁⟩ := logOutput_silent "STDOUT" out programs v
    obtain ⟨v₂, herr, hs₂⟩ := logOutput_silent "STDERR" err programs v₁
    dsimp only
    rw [Run.bind_of_ok hout, Run.bind_of_ok herr]
    have hsettle : ((Reply.exited status out err).result (name :: rest)).bind mode.settle =
        if (mode.check && status != 0) = true then
          .error (.command ⟨name :: rest, status, (err : Text)⟩)
        else .ok ⟨name :: rest, status, out, err⟩ := rfl
    rw [hsettle]
    split
    · exact ⟨rfl, hs₁.trans hs₂⟩
    · exact ⟨rfl, hs₁.trans hs₂⟩
  · cases cause with
    | missing =>
      have hsettle : ((Reply.unstarted (.system .missing path)).result (name :: rest)).bind
          mode.settle = if (mode.check && true) = true then _ else _ := rfl
      dsimp only
      rw [hsettle, Bool.and_true]
      split
      · exact ⟨rfl, .refl v⟩
      · rw [Run.bind_of_ok (log_eq _ _ _ programs v)]
        exact ⟨rfl, World.silent_write _ programs v⟩
    | _ => exact ⟨rfl, .refl v⟩
  all_goals exact ⟨rfl, .refl v⟩

/-! ## The two ways -/

/-- The mode with its check put on or off. -/
def Mode.checking (mode : Mode) (check : Bool) : Mode := { mode with check }

/-- What a checked command ends with: the result, or its failure. -/
def Result.delivered (r : Result) : Except Failure Result :=
  if r.ok then .ok r else .error (.command r.fault)

theorem settle_checking_true (mode : Mode) : (mode.checking true).settle = Result.delivered := by
  funext r
  unfold Mode.settle Result.delivered
  cases r.ok <;> simp [Mode.checking]

theorem settle_checking_false (mode : Mode) : (mode.checking false).settle = .ok := by
  funext r
  simp [Mode.settle, Mode.checking]

theorem argv_of_result {reply : Reply} {r : Result} (h : reply.result words = .ok r) :
    r.argv = words := by
  rcases reply with _ | ⟨⟨_ | _, _⟩ | _ | _ | _⟩ | _ | _ <;> cases h <;> rfl

/-- An unchecked command ends with the result that its reply gives. -/
theorem run_unchecked {mode : Mode} (hdry : mode.dryRun = false) (hwords : words ≠ []) :
    (run words (mode.checking false) programs w).1 =
      (replyTo mode words programs w).1.result words := by
  rw [(run_live (mode.checking false) hdry hwords).1, settle_checking_false]
  change ((replyTo mode words programs w).1.result words).bind .ok = _
  cases (replyTo mode words programs w).1.result words <;> rfl

/-- A checked command ends with what the unchecked one ends with, delivered. -/
theorem run_checked (mode : Mode) (words : List Text) (programs : Programs) (w : World) :
    (run words (mode.checking true) programs w).1 =
      (run words (mode.checking false) programs w).1.bind Result.delivered := by
  by_cases hdry : mode.dryRun = true
  · rw [run_dry (mode.checking true) hdry, run_dry (mode.checking false) hdry]
    rfl
  · have hdry : mode.dryRun = false := eq_false_of_ne_true hdry
    by_cases hwords : words = []
    · rw [hwords, run_nil (mode.checking true) hdry,
        run_nil (mode.checking false) hdry]
      rfl
    · rw [run_unchecked hdry hwords, (run_live (mode.checking true) hdry hwords).1,
        settle_checking_true]
      rfl

/-- The words of a result are those of the command. -/
theorem argv_of_run {mode : Mode} {check : Bool} {r : Result}
    (h : (run words (mode.checking check) programs w).1 = .ok r) : r.argv = words := by
  have hunchecked : ∀ r, (run words (mode.checking false) programs w).1 = .ok r →
      r.argv = words := by
    intro r hr
    by_cases hdry : mode.dryRun = true
    · rw [run_dry (mode.checking false) hdry] at hr
      cases hr
      rfl
    · have hdry : mode.dryRun = false := eq_false_of_ne_true hdry
      by_cases hwords : words = []
      · rw [hwords, run_nil (mode.checking false) hdry] at hr
        cases hr
      · exact argv_of_result ((run_unchecked hdry hwords).symm.trans hr)
  cases check with
  | false => exact hunchecked r h
  | true =>
    rw [run_checked] at h
    cases hr : (run words (mode.checking false) programs w).1 with
    | error f =>
      rw [hr] at h
      cases h
    | ok r' =>
      rw [hr] at h
      change r'.delivered = .ok r at h
      unfold Result.delivered at h
      split at h <;> cases h
      exact hunchecked r hr

/-- What comes before and with the start of a command: the host it is started on is the one before,
but for the logs, and the programs are asked as after the starts before. -/
theorem replyTo_spec (mode : Mode) (words : List Text) (programs : Programs) (w : World) :
    ∃ host, Host.SameButLogs w.journal.openLogs w.host host ∧
      replyTo mode words programs w = programs (startsOf w.trace) (mode.start words) host := by
  obtain ⟨-, hhost, added, htrace, hacts⟩ := silent_announced words programs w
  refine ⟨_, hhost, ?_⟩
  have hstarts : startsOf (announced words programs w).trace = startsOf w.trace := by
    rw [htrace, startsOf_append, ← startsOf_actsOf added, hacts]
    exact List.append_nil _
  unfold replyTo
  dsimp only
  rw [hstarts]

/-- A command that is started adds its start to the acts, and leaves the host that its reply leaves,
but for the logs. -/
theorem run_started (mode : Mode) (hdry : mode.dryRun = false) (hwords : words ≠ []) :
    Host.SameButLogs w.journal.openLogs (replyTo mode words programs w).2
      (run words mode programs w).2.host ∧
    ∃ added, (run words mode programs w).2.trace = w.trace ++ added ∧
      actsOf added = [.started (mode.start words) (replyTo mode words programs w).1] := by
  obtain ⟨hlogs, -, added, htrace, hacts⟩ := silent_announced words programs w
  obtain ⟨-, hhost, more, htrace', hacts'⟩ : (started mode words programs w).Silent _ :=
    (run_live mode hdry hwords).2
  have hstarted : (started mode words programs w).trace = (announced words programs w).trace ++
      [.started (mode.start words) (replyTo mode words programs w).1] := rfl
  refine ⟨hlogs ▸ hhost, added ++
    .started (mode.start words) (replyTo mode words programs w).1 :: more, ?_, ?_⟩
  · rw [htrace', hstarted, htrace, List.append_assoc, List.append_assoc]
    rfl
  · rw [actsOf_append, hacts, List.nil_append]
    exact congrArg (List.cons _) hacts'

/-- A command is run in the same way whether it is checked or not, for any words and mode, any
programs of the host, and any world. A result whose status is zero is the result of both; the
failure that an unchecked result with another status stands for is the failure of the checked
command; any other failure is a failure of both. If the words have texts, these are the words of
every result. A dry run starts nothing and gives a success without output. Else both ways start the
same command once, on the same host but for the logs, get the same reply, and leave the host that it
leaves; a command that does not exist has the status 127. -/
theorem modes_agree (argv : List Value) (mode : Mode) (programs : Programs) (w : World) :
    let run (check : Bool) := runValues argv { mode with check } programs w
    (∀ r, (run false).1 = .ok r → r.ok = true → (run true).1 = .ok r) ∧
    (∀ r, (run false).1 = .ok r → r.status ≠ 0 →
      (run true).1 = .error (.command ⟨r.argv, r.status, r.err⟩)) ∧
    (∀ f, (run false).1 = .error f → (run true).1 = .error f) ∧
    ∀ words, argv.mapM Value.text? = some words →
      (∀ check r, (run check).1 = .ok r → r.argv = words) ∧
      (mode.dryRun = true → ∀ check,
        (run check).1 = .ok ⟨words, 0, "", ""⟩ ∧ w.Silent (run check).2) ∧
      (mode.dryRun = false → words ≠ [] →
        let start : Start := ⟨words, mode.input, mode.cwd, mode.env⟩
        ∃ host reply host', Host.SameButLogs w.journal.openLogs w.host host ∧
          programs (startsOf w.trace) start host = (reply, host') ∧
          (run false).1 = reply.result words ∧
          (∀ path, reply = .unstarted (.system .missing path) → (run false).1 =
            .ok ⟨words, 127, "", Host.Refusal.message (.system .missing path)⟩) ∧
          ∀ check, Host.SameButLogs w.journal.openLogs host' (run check).2.host ∧
            ∃ added, (run check).2.trace = w.trace ++ added ∧
              actsOf added = [.started start reply]) := by
  intro run'
  have hrun : ∀ words check, argv.mapM Value.text? = some words →
      run' check = run words (mode.checking check) programs w := by
    intro words check hwords
    simp only [run', runValues, hwords]
    rfl
  have hdelivered : (run' true).1 = (run' false).1.bind Result.delivered := by
    cases hwords : argv.mapM Value.text? with
    | none => simp only [run', runValues, hwords]; rfl
    | some words => rw [hrun words true hwords, hrun words false hwords, run_checked]
  refine ⟨fun r hr hok => ?_, fun r hr hstatus => ?_, fun f hf => ?_, fun words hwords => ?_⟩
  · rw [hdelivered, hr]
    exact if_pos hok
  · rw [hdelivered, hr]
    exact if_neg (by simpa [Result.ok] using hstatus)
  · rw [hdelivered, hf]
    rfl
  · simp only [hrun words _ hwords]
    refine ⟨fun check r => argv_of_run, fun hdry check => ?_, fun hdry hne => ?_⟩
    · rw [run_dry (mode.checking check) hdry]
      exact ⟨rfl, silent_announced words programs w⟩
    · obtain ⟨host, hhost, hreply⟩ := replyTo_spec mode words programs w
      let answer := replyTo mode words programs w
      refine ⟨host, answer.1, answer.2, hhost, hreply.symm, run_unchecked hdry hne,
        fun path hpath => ?_, fun check => ?_⟩
      · rw [run_unchecked hdry hne, hpath]
        rfl
      · exact run_started (mode.checking check) hdry hne

/-- A command that fails, with a number among its words, in a directory of its own. -/
theorem modes_agree_failing :
    let argv : List Value := [.text "cp", .int 5]
    let words : List Text := ["cp", "5"]
    let mode : Mode := { cwd := some "sub" }
    let programs := Script.programs [("cp", [⟨[], .exits 3 "out" "no"⟩])] 0
    let run (check : Bool) := runValues argv { mode with check } programs (.untouched .workbench)
    argv.mapM Value.text? = some words ∧ mode.dryRun = false ∧ words ≠ [] ∧
      (run false).1 = .ok ⟨words, 3, "out", "no"⟩ ∧
      (run true).1 = .error (.command ⟨words, 3, "no"⟩) ∧
      startsOf (run true).2.trace = [⟨words, none, some "sub", []⟩] ∧
      startsOf (run false).2.trace = [⟨words, none, some "sub", []⟩] := by
  intro argv words mode programs run
  have hwords : argv.mapM Value.text? = some words := by decide +kernel
  have hresult : (run false).1 = .ok ⟨words, 3, "out", "no"⟩ :=
    eq_ok_of_toOption (by decide +kernel)
  obtain ⟨-, hfailing, -, htexts⟩ := modes_agree argv mode programs (.untouched .workbench)
  obtain ⟨-, -, hlive⟩ := htexts words hwords
  obtain ⟨_, _, _, -, -, -, -, hstarts⟩ := hlive rfl (by decide)
  have hstarted : ∀ check, startsOf (run check).2.trace = [⟨words, none, some "sub", []⟩] := by
    intro check
    obtain ⟨-, added, htrace, hacts⟩ := hstarts check
    rw [htrace, startsOf_append, ← startsOf_actsOf added, hacts]
    rfl
  exact ⟨hwords, rfl, by decide, hresult, hfailing _ hresult (by decide), hstarted true,
    hstarted false⟩

end FatInstall.Command
