import FatInstall.Proofs.Run.Conduct
import FatInstall.Tools

/-!
# Calls of the tools

The eight commands that the tools start, and how the reply to a start becomes the answer of a tool.

* `Call`, `Tools.start`: a command with its operands, and the start that the tools make of it.
* `Reply.verdict`: the exit status of a reply, where a missing executable counts as status 127;
  every other reply ends the run with a failure.
* `Run.obeys_asks`: a tool that is not run dry starts its command once, and its answer is a
  function of the reply alone.
-/

namespace FatInstall

/-! ## Commands -/

/-- A command of the tools with its operands. -/
inductive Call
  | mount (image target : Path)
  | mountpoint (dir : Path)
  | umount (dir : Path)
  | sync
  | mkdir (dir : Path)
  | cp (source dir : Path)
  | mmd (image : Path) (dir : Text)
  | mcopy (image source : Path) (dir : Text)
  deriving DecidableEq, Repr

/-- The words of a command, without `sudo`. -/
def Call.words : Call → List Text
  | mount image target => ["mount", image.text, target.text]
  | mountpoint dir => ["mountpoint", "-q", dir.text]
  | umount dir => ["umount", dir.text]
  | sync => ["sync"]
  | mkdir dir => ["mkdir", "-p", dir.text]
  | cp source dir => ["cp", source.text, dir.text ++ "/"]
  | mmd image dir => ["mmd", "-i", image.text, drivePath dir]
  | mcopy image source dir => ["mcopy", "-i", image.text, "-o", source.text, driveDirectory dir]

/-- Does the command need privileges? -/
def Call.isPrivileged : Call → Bool
  | mount _ _ | umount _ | mkdir _ | cp _ _ => true
  | mountpoint _ | sync | mmd _ _ | mcopy _ _ _ => false

/-- The words that the tools start for a command. -/
def Tools.argv (t : Tools) (c : Call) : List Text :=
  if c.isPrivileged then t.privileged c.words else c.words

/-- The start that the tools make for a command. -/
def Tools.start (t : Tools) (c : Call) : Start := ⟨t.argv c, none, none, []⟩

theorem Tools.argv_ne_nil (t : Tools) (c : Call) : t.argv c ≠ [] := by
  cases c <;> simp [Tools.argv, Tools.privileged, Call.words, Call.isPrivileged] <;> split <;> simp

/-- The words of a command without a leading `sudo`. -/
def unprivileged : List Text → List Text
  | [] => []
  | word :: words => if word = "sudo" then words else word :: words

theorem unprivileged_argv (t : Tools) (c : Call) : unprivileged (t.argv c) = c.words := by
  cases c <;> simp only [Tools.argv, Tools.privileged, Call.isPrivileged, Call.words] <;>
    cases t.useSudo <;> rfl

/-- The name of a command. -/
def Call.name (c : Call) : Text := c.words.headD .empty

theorem Tools.name_of_start_eq {t : Tools} {c c' : Call} (h : t.start c = t.start c') :
    c.name = c'.name := by
  have hargv : t.argv c = t.argv c' := congrArg FatInstall.Start.argv h
  rw [Call.name, Call.name, ← unprivileged_argv t c, ← unprivileged_argv t c', hargv]

/-! ## Replies -/

/-- What is left of a command with the given words, if the reply lets the run go on. -/
def Reply.result (argv : List Text) : Reply → Except Failure Command.Result
  | .exited status out err => .ok ⟨argv, status, out, err⟩
  | .unstarted (.system .missing path) =>
    .ok ⟨argv, Command.statusMissing, "", Host.Refusal.message (.system .missing path)⟩
  | .unstarted why => .error (.refused why)
  | .garbled => .error (.value .undecodable)
  | .interrupted => .error .interrupted

/-- The result of a command, or its failure if it is checked. -/
def Command.Mode.settle (mode : Command.Mode) (x : Command.Result) :
    Except Failure Command.Result :=
  if mode.check && !x.ok then .error (.command x.fault) else .ok x

/-- The exit status of a reply, if it lets the run go on. -/
def Reply.verdict (r : Reply) : Except Failure Int := (r.result []).map (·.status)

/-- The answer to a command whose success is asked for. -/
def Reply.succeeded (r : Reply) : Except Failure Bool := r.verdict.map (· == 0)

/-- The answer to a command whose success does not matter. -/
def Reply.ended (r : Reply) : Except Failure Unit := r.verdict.map fun _ => ()

/-- The answer to a checked command with the given words. -/
def Reply.checked (argv : List Text) (r : Reply) : Except Failure Unit :=
  (r.result argv).bind fun x => if x.ok then .ok () else .error (.command x.fault)

theorem Reply.result_map_status (argv : List Text) (r : Reply) :
    (r.result argv).map (·.status) = r.verdict := by
  rcases r with _ | (⟨_ | _, _⟩ | _ | _ | _) | _ | _ <;> rfl

theorem Reply.result_map_ok (argv : List Text) (r : Reply) :
    (r.result argv).map (·.ok) = r.succeeded := by
  rw [succeeded, ← result_map_status argv]
  cases r.result argv <;> rfl

theorem Reply.result_map_unit (argv : List Text) (r : Reply) :
    ((r.result argv).map fun _ => ()) = r.ended := by
  rw [ended, ← result_map_status argv]
  cases r.result argv <;> rfl

theorem Reply.settle_map_unit {mode : Command.Mode} (hc : mode.check = true) (argv : List Text)
    (r : Reply) : (((r.result argv).bind mode.settle).map fun _ => ()) = r.checked argv := by
  rw [checked]
  rcases r.result argv with f | x
  · rfl
  · cases hx : x.ok <;> simp [Except.bind, Except.map, Command.Mode.settle, hc, hx]

/-- A run is never ended by a reply with the failure of a command. -/
theorem Reply.verdict_ne_command (r : Reply) (why : CommandFault) :
    r.verdict ≠ .error (.command why) := by
  rcases r with _ | (⟨_ | _, _⟩ | _ | _ | _) | _ | _ <;> simp [verdict, result, Except.map]

theorem Reply.verdict_ne_update (r : Reply) (f : UpdateFault) :
    r.verdict ≠ .error (.update f) := by
  rcases r with _ | (⟨_ | _, _⟩ | _ | _ | _) | _ | _ <;> simp [verdict, result, Except.map]

/-- The three answers to a checked command. -/
theorem Reply.checked_cases (argv : List Text) (r : Reply) :
    (r.verdict = .ok 0 ∧ r.checked argv = .ok ()) ∨
      (∃ why : CommandFault, r.verdict = .ok why.status ∧ why.status ≠ 0 ∧ why.argv = argv ∧
        r.checked argv = .error (.command why)) ∨
        ∃ f, r.verdict = .error f ∧ r.checked argv = .error f := by
  have hargv : ∀ x, r.result argv = .ok x → x.argv = argv := by
    intro x hx
    rcases r with _ | (⟨_ | _, _⟩ | _ | _ | _) | _ | _ <;> cases hx <;> rfl
  simp only [checked, ← result_map_status argv r]
  rcases hr : r.result argv with f | x
  · exact .inr (.inr ⟨f, rfl, rfl⟩)
  · by_cases hx : x.status = 0
    · exact .inl ⟨by simp [Except.map, hx], by simp [Except.bind, Command.Result.ok, hx]⟩
    · refine .inr (.inl ⟨x.fault, rfl, hx, hargv x hr, ?_⟩)
      simp [Except.bind, Command.Result.ok, hx]

theorem Reply.checked_of_verdict {argv : List Text} {r : Reply} (h : r.verdict = .ok 0) :
    r.checked argv = .ok () := by
  rcases r.checked_cases argv with ⟨-, hc⟩ | ⟨why, hv, hn, -, -⟩ | ⟨f, hv, -⟩
  · exact hc
  · exact (hn (Except.ok.inj (hv.symm.trans h))).elim
  · cases h.symm.trans hv

theorem Reply.command_of_verdict {argv : List Text} {r : Reply} {n : Int}
    (h : r.verdict = .ok n) (hn : n ≠ 0) : ∃ why, r.checked argv = .error (.command why) := by
  rcases r.checked_cases argv with ⟨hv, -⟩ | ⟨why, -, -, -, hc⟩ | ⟨f, hv, -⟩
  · cases h.symm.trans hv
    exact (hn rfl).elim
  · exact ⟨why, hc⟩
  · cases h.symm.trans hv

/-- The run starts one command, and its answer is a function of the reply. -/
def Scene.asks {α : Type} (s : Scene) (st : Start) (answer : Reply → Except Failure α)
    (h : Host) : Conduct α :=
  fun acts res h' => ∃ r, s.touch h h' ∧ acts = [.started st r] ∧ res = answer r

namespace Run

variable {α β : Type} {s : Scene} {h : Host}

/-- A run after one that asks. -/
theorem Obeys.bind_asks {r : Run α} {k : α → Run β} {C : Conduct β} {st : Start}
    {answer : Reply → Except Failure α} (hr : r.Obeys s h (s.asks st answer h))
    (hf : ∀ r f m, s.touch h m → answer r = .error f → C [.started st r] (.error f) m)
    (hk : ∀ r a m, s.touch h m → answer r = .ok a →
      (k a).Obeys s m fun ys res h' => C (.started st r :: ys) res h') :
    (r >>= k).Obeys s h C := by
  refine Obeys.bind hr ?_ ?_
  · rintro xs f m ⟨r, ht, rfl, hr⟩
    exact hf r f m ht hr.symm
  · rintro xs a m ⟨r, ht, rfl, hr⟩
    exact hk r a m ht hr.symm

/-- A run that asks and gives a result made of the answer. -/
theorem Obeys.asks_map {r : Run α} {k : α → Run β} {st : Start}
    {answer : Reply → Except Failure α} (f : α → β) (hr : r.Obeys s h (s.asks st answer h))
    (hk : ∀ a m, (k a).Obeys s m fun ys res h' => ys = [] ∧ res = .ok (f a) ∧ h' = m) :
    (r >>= k).Obeys s h (s.asks st (fun r => (answer r).map f) h) := by
  refine Obeys.bind_asks hr ?_ ?_
  · intro r e m ht he
    exact ⟨r, ht, rfl, by simp only [he]; rfl⟩
  · intro r a m ht ha
    refine (hk a m).mono ?_
    rintro ys res h' ⟨rfl, rfl, rfl⟩
    exact ⟨r, ht, rfl, by simp only [ha]; rfl⟩

/-! ## Running a command -/

theorem Obeys.after_logOutput {label text : String} {k : Unit → Run α} {C : Conduct α}
    (hk : (k ()).Obeys s h C) : (Command.logOutput label text >>= k).Obeys s h C := by
  unfold Command.logOutput
  split
  · exact hk
  · exact Obeys.after_log hk

/-- A command is started once, and answered as its mode says. -/
theorem obeys_run {argv : List Text} (hargv : argv ≠ []) (mode : Command.Mode)
    (hdry : mode.dryRun = false) :
    (Command.run argv mode).Obeys s h (s.asks ⟨argv, mode.input, mode.cwd, mode.env⟩
      (fun r => (r.result argv).bind mode.settle) h) := by
  obtain ⟨name, rest, rfl⟩ := List.exists_cons_of_ne_nil hargv
  unfold Command.run
  refine Obeys.after_log ?_
  simp only [hdry, Bool.false_eq_true, if_false]
  have hstart : (start ⟨name :: rest, mode.input, mode.cwd, mode.env⟩).Obeys s h
      (s.asks ⟨name :: rest, mode.input, mode.cwd, mode.env⟩ .ok h) :=
    obeys_start fun r h' ht => ⟨r, ht, rfl, rfl⟩
  refine Obeys.bind_asks hstart (by rintro r f m - hf; cases hf) ?_
  intro r r' m ht hr
  obtain rfl : r = r' := by cases hr; rfl
  -- what follows the start is no act: its result is the answer to the reply
  refine Obeys.mono (C := fun ys res h' =>
    ys = [] ∧ res = (r.result (name :: rest)).bind mode.settle ∧ h' = m) ?_
    (by rintro ys res h' ⟨rfl, rfl, rfl⟩; exact ⟨r, ht, rfl, rfl⟩)
  cases r with
  | exited status out err =>
    refine Obeys.after_logOutput (Obeys.after_logOutput ?_)
    let x : Command.Result := ⟨name :: rest, status, out, err⟩
    change Obeys (if (mode.check && !x.ok) = true then _ else _) s _ _
    by_cases hc : (mode.check && !x.ok) = true
    · rw [if_pos hc]
      exact obeys_fail ⟨rfl, (if_pos hc).symm, rfl⟩
    · rw [if_neg hc]
      exact obeys_pure ⟨rfl, (if_neg hc).symm, rfl⟩
  | unstarted why =>
    rcases why with ⟨cause, path⟩ | _ | _ | _
    · cases cause with
      | missing =>
        let x : Command.Result :=
          ⟨name :: rest, Command.statusMissing, "", Host.Refusal.message (.system .missing path)⟩
        have hx : x.ok = false := rfl
        change Obeys (if mode.check = true then _ else _) s _ _
        by_cases hc : mode.check = true
        · rw [if_pos hc]
          exact obeys_fail ⟨rfl, (if_pos (by rw [hc, hx]; rfl)).symm, rfl⟩
        · rw [if_neg hc]
          refine Obeys.after_log (obeys_pure ⟨rfl, (if_neg ?_).symm, rfl⟩)
          simp [hc]
      | _ => exact obeys_fail ⟨rfl, rfl, rfl⟩
    all_goals exact obeys_fail ⟨rfl, rfl, rfl⟩
  | garbled => exact obeys_fail ⟨rfl, rfl, rfl⟩
  | interrupted => exact obeys_fail ⟨rfl, rfl, rfl⟩

/-! ## The tools -/

variable {t : Tools} (ht : t.dryRun = false)
include ht

theorem obeys_unchecked (c : Call) :
    (t.run false (t.argv c)).Obeys s h (s.asks (t.start c) (Reply.result (t.argv c)) h) := by
  refine (obeys_run (t.argv_ne_nil c) { check := false, dryRun := t.dryRun } ht).mono ?_
  rintro acts res h' ⟨r, hm, rfl, rfl⟩
  refine ⟨r, hm, rfl, ?_⟩
  dsimp only
  cases r.result (t.argv c) <;> rfl

theorem obeys_checked (c : Call) :
    (t.run true (t.argv c) >>= fun _ => pure ()).Obeys s h
      (s.asks (t.start c) (Reply.checked (t.argv c)) h) := by
  rw [← funext (@Reply.settle_map_unit { check := true, dryRun := t.dryRun } rfl _)]
  exact Obeys.asks_map _ (obeys_run (t.argv_ne_nil c) _ ht) fun a m => obeys_pure ⟨rfl, rfl, rfl⟩

/-- Asking whether a command succeeded. -/
theorem obeys_succeeded (c : Call) :
    (t.run false (t.argv c) >>= fun r => pure r.ok).Obeys s h
      (s.asks (t.start c) Reply.succeeded h) := by
  rw [← funext (Reply.result_map_ok (t.argv c))]
  exact Obeys.asks_map _ (obeys_unchecked ht c) fun a m => obeys_pure ⟨rfl, rfl, rfl⟩

theorem obeys_mount (image target : Path) :
    (t.mount image target).Obeys s h
      (s.asks (t.start (.mount image target)) Reply.succeeded h) := by
  rw [← funext (Reply.result_map_ok (t.argv (.mount image target)))]
  refine Obeys.asks_map _ (obeys_unchecked ht (.mount image target)) fun a m => ?_
  split
  · exact Obeys.after_log (obeys_pure ⟨rfl, rfl, rfl⟩)
  · exact obeys_pure ⟨rfl, rfl, rfl⟩

theorem obeys_isMountpoint (dir : Path) :
    (t.isMountpoint dir).Obeys s h (s.asks (t.start (.mountpoint dir)) Reply.succeeded h) :=
  obeys_succeeded ht (.mountpoint dir)

theorem obeys_unmount (dir : Path) :
    (t.unmount dir).Obeys s h (s.asks (t.start (.umount dir)) Reply.succeeded h) :=
  obeys_succeeded ht (.umount dir)

theorem obeys_makeImageDirectory (image : Path) (dir : Text) :
    (t.makeImageDirectory image dir).Obeys s h
      (s.asks (t.start (.mmd image dir)) Reply.succeeded h) :=
  obeys_succeeded ht (.mmd image dir)

theorem obeys_sync : t.sync.Obeys s h (s.asks (t.start .sync) Reply.ended h) := by
  rw [← funext (Reply.result_map_unit (t.argv .sync))]
  refine Obeys.asks_map _ (obeys_unchecked ht .sync) fun a m => ?_
  split
  · exact obeys_log ⟨rfl, rfl, rfl⟩
  · exact obeys_pure ⟨rfl, rfl, rfl⟩

theorem obeys_makeDirectory (dir : Path) :
    (t.makeDirectory dir).Obeys s h
      (s.asks (t.start (.mkdir dir)) (Reply.checked (t.argv (.mkdir dir))) h) :=
  obeys_checked ht (.mkdir dir)

theorem obeys_copyFile (source dir : Path) :
    (t.copyFile source dir).Obeys s h
      (s.asks (t.start (.cp source dir)) (Reply.checked (t.argv (.cp source dir))) h) :=
  obeys_checked ht (.cp source dir)

theorem obeys_copyIntoImage (image source : Path) (dir : Text) :
    (t.copyIntoImage image source dir).Obeys s h (s.asks (t.start (.mcopy image source dir))
      (Reply.checked (t.argv (.mcopy image source dir))) h) :=
  obeys_checked ht (.mcopy image source dir)

end Run

end FatInstall
