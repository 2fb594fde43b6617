import FatInstall.Proofs.Host.Trail
import FatInstall.Proofs.Run.Silence
import FatInstall.World.Script

/-!
# The journal is set up once

The journal can be asked for at any time, also after a failure and after the files have changed.
The first call that does not fail sets it up. The calls before it change the threshold of the
journal and perhaps the files, the calls after it change the threshold and nothing else.

* `ownFile`, `Opening`: how a log file is opened, or the one in the current directory instead.
* `Installs`: what a call does that finds the journal not set up.
* `Step`, `after`: calls, and changes of the files between them.
* `setUpBy_once`: what any call does after any steps.
* `setUpBy_notEncodable`: a path without a form in bytes is not given up for the other one.
-/

namespace FatInstall.Journal

open Host (Refusal)

/-! ## Opening a log file -/

/-- Opens a log file under its own path, after the directories above it were made. -/
def ownFile (h : Host) (path : Text) : Except Refusal (Option Nat) × Host :=
  match h.makeDirectory (Path.ofText path).parent with
  | (.error why, h') => (.error why, h')
  | (.ok (), h') => h'.openToAppend ((Path.ofText path).absolute h'.here)

/-- How a log file is opened: its number and path, and the host afterwards. -/
inductive Opening (h : Host) (path : Text) : Except Failure (Option Nat × Text) → Host → Prop
  | own {number : Option Nat} {h' : Host} : ownFile h path = (.ok number, h') →
      Opening h path (.ok (number, path)) h'
  | fallback {why : Refusal} {number : Option Nat} {m h' : Host} :
      ownFile h path = (.error why, m) → why.isBySystem = true →
      m.openToAppend (fallbackPath h) = (.ok number, h') →
      Opening h path (.ok (number, (fallbackPath h).text)) h'
  | refused {why why' : Refusal} {m h' : Host} :
      ownFile h path = (.error why, m) → why.isBySystem = true →
      m.openToAppend (fallbackPath h) = (.error why', h') →
      Opening h path (.error (.refused why')) h'
  | unspeakable {why : Refusal} {h' : Host} :
      ownFile h path = (.error why, h') → why.isBySystem = false →
      Opening h path (.error (.refused why)) h'

theorem openToAppend_here (h : Host) (p : Path) : (h.openToAppend p).2.here = h.here := by
  unfold Host.openToAppend
  split
  · rfl
  · rfl
  · split <;> rfl

theorem ownFile_here (h : Host) (path : Text) : (ownFile h path).2.here = h.here := by
  have hmade := (Host.extends_makeDirectory h (Path.ofText path).parent).here
  unfold ownFile
  split
  · next hm => rwa [hm] at hmade
  · next hm =>
    rw [hm] at hmade
    rw [openToAppend_here, hmade]

section

variable {α : Type} {f : Host → Except Refusal α × Host} {programs : Programs} {w : World}
  {h' : Host}

theorem change_of_error {why : Refusal} (hf : f w.host = (.error why, h')) :
    Run.change f programs w = (.error (.refused why), { w with host := h' }) := by
  change ((f w.host).1.mapError Failure.refused, { w with host := (f w.host).2 }) = _
  rw [hf]
  rfl

theorem change_of_ok {a : α} (hf : f w.host = (.ok a, h')) :
    Run.change f programs w = (.ok a, { w with host := h' }) := by
  change ((f w.host).1.mapError Failure.refused, { w with host := (f w.host).2 }) = _
  rw [hf]
  rfl

end

theorem openFile_eq (path : Text) (programs : Programs) (w : World) :
    openFile path programs w =
      ((ownFile w.host path).1.mapError .refused, { w with host := (ownFile w.host path).2 }) := by
  unfold openFile ownFile
  rcases hm : w.host.makeDirectory (Path.ofText path).parent with ⟨why | _, h'⟩
  · exact Run.bind_of_error (change_of_error hm)
  · exact Run.bind_of_ok (change_of_ok hm)

theorem openLog_opening (path : Text) (programs : Programs) (w : World) : ∃ res h',
    openLog path programs w = (res, { w with host := h' }) ∧ Opening w.host path res h' := by
  have hattempt : Run.attempt (openFile path) programs w =
      (.ok ((ownFile w.host path).1.mapError .refused),
        { w with host := (ownFile w.host path).2 }) := by
    unfold Run.attempt
    rw [openFile_eq]
  have hfallback : fallbackPath (ownFile w.host path).2 = fallbackPath w.host := by
    unfold fallbackPath
    rw [ownFile_here]
  unfold openLog
  rw [Run.bind_of_ok hattempt]
  rcases ho : ownFile w.host path with ⟨why | number, m⟩
  · rw [ho] at hfallback
    simp only [Run.mapError_error]
    cases hw : why.isBySystem with
    | false => exact ⟨_, m, rfl, .unspeakable ho hw⟩
    | true =>
      have hlook : Run.look (fun h => .ok (fallbackPath h)) programs { w with host := m } =
          (.ok (fallbackPath w.host), { w with host := m }) := by
        rw [← hfallback]
        rfl
      simp only [Bool.not_true, Bool.false_eq_true, if_false]
      rw [Run.bind_of_ok hlook]
      rcases hf : m.openToAppend (fallbackPath w.host) with ⟨why' | number, h'⟩
      · exact ⟨_, h', Run.bind_of_error (change_of_error hf), .refused ho hw hf⟩
      · exact ⟨_, h', Run.bind_of_ok (change_of_ok hf), .fallback ho hw hf⟩
  · exact ⟨.ok (number, path), m, rfl, .own ho⟩

/-! ## Installing -/

/-- The sinks that a call installs: the log file, if one was opened, and the console if it is asked
for. -/
def Request.sinks (r : Request) (file : Option (Option Nat)) : List Sink :=
  (file.map Sink.file).toList ++ if r.console then [.console] else []

/-- How the log file that is asked for is opened, if one is. -/
inductive Acquires (r : Request) (h : Host) :
    Except Failure (Option (Option Nat × Text)) → Host → Prop
  | unasked : r.file? = none → Acquires r h (.ok none) h
  | asked {path : Text} {res : Except Failure (Option Nat × Text)} {h' : Host} :
      r.file? = some path → Opening h path res h' → Acquires r h (res.map some) h'

/-- What a call does that finds the journal not set up. If it fails, all that is left of it is the
threshold, and what was changed on the host until then. -/
inductive Installs (r : Request) (w : World) : Except Failure (Option Text) → World → Prop
  | done {file : Option (Option Nat × Text)} {h' : Host} {w' : World} :
      Acquires r w.host (.ok file) h' →
      w'.journal = { w.journal with
        threshold := r.threshold
        sinks := w.journal.sinks ++ r.sinks (file.map Prod.fst)
        setUp := some (file.map Prod.snd) } →
      Host.SameButLogs w'.journal.openLogs h' w'.host →
      Installs r w (.ok (file.map Prod.snd)) w'
  | failed {f : Failure} {h' : Host} : Acquires r w.host (.error f) h' →
      Installs r w (.error f)
        { w with host := h', journal := { w.journal with threshold := r.threshold } }

variable {programs : Programs} {w : World} {r : Request}

/-- Once the log file is opened, the sinks are installed, and a record is written that the journal
is set up. -/
theorem installs_of_acquires {file : Option (Option Nat × Text)} {h' : Host} (message : Text)
    (hf : Acquires r w.host (.ok file) h') :
    let run : Run (Option Text) := do
      modifyJournal fun j => { j with
        sinks := j.sinks ++ r.sinks (file.map Prod.fst)
        setUp := some (file.map Prod.snd) }
      Run.log .info .journal message
      return file.map Prod.snd
    let ended := run programs
      { w with host := h', journal := { w.journal with threshold := r.threshold } }
    Installs r w ended.1 ended.2 := by
  intro run ended
  let threshold' : Journal := { w.journal with threshold := r.threshold }
  let v : World := { w with host := h', journal := { threshold' with
    sinks := w.journal.sinks ++ r.sinks (file.map Prod.fst), setUp := some (file.map Prod.snd) } }
  let record : Record := ⟨.info, Channel.journal.name, message, false⟩
  have hended : ended = (.ok (file.map Prod.snd), (Run.write record programs v).2) :=
    (Run.bind_of_ok rfl).trans (Run.bind_of_ok (Run.write_eq record programs v))
  obtain ⟨hj, hh, -⟩ := World.added_of_write record programs v
  rw [hended]
  exact .done hf hj (hj ▸ hh)

theorem setUpBy_installs (programs : Programs) (r : Request) (hw : w.journal.setUp = none) :
    Installs r w (setUpBy r programs w).1 (setUpBy r programs w).2 := by
  let v : World := { w with journal := { w.journal with threshold := r.threshold } }
  have hbefore : setUpBefore programs v = (.ok none, v) :=
    congrArg (fun x => (Except.ok x, v)) hw
  unfold setUpBy
  have hthreshold : modifyJournal (fun j => { j with threshold := r.threshold }) programs w =
      (.ok (), v) := rfl
  rw [Run.bind_of_ok hthreshold, Run.bind_of_ok hbefore]
  cases hfile : r.file? with
  | none => exact installs_of_acquires _ (.unasked hfile)
  | some path =>
    obtain ⟨res, h', hopen, hopening⟩ := openLog_opening path programs v
    have hacquired := Acquires.asked hfile hopening
    dsimp only
    cases res with
    | error f =>
      rw [Run.bind_of_error hopen]
      exact .failed hacquired
    | ok o =>
      rw [Run.bind_of_ok hopen]
      exact installs_of_acquires (w := w) _ hacquired

/-- A call that finds the journal set up changes its threshold and nothing else. -/
theorem setUpBy_of_setUp {path : Option Text} (programs : Programs) (r : Request)
    (hw : w.journal.setUp = some path) :
    setUpBy r programs w =
      (.ok path, { w with journal := { w.journal with threshold := r.threshold } }) := by
  unfold setUpBy
  rw [Run.bind_of_ok rfl, Run.bind_of_ok rfl]
  simp only [hw]
  rfl

/-! ## Calls, one after the other -/

/-- What can happen to a journal that is not in use: a call, or a change of the files. -/
inductive Step
  | asked (request : Request)
  | changed (change : Host → Host)

/-- The world after a step. -/
def Step.run (programs : Programs) (w : World) : Step → World
  | asked r => (setUpBy r programs w).2
  | changed f => { w with host := f w.host }

/-- The world after some steps. -/
def after (programs : Programs) (w : World) (steps : List Step) : World :=
  steps.foldl (Step.run programs) w

/-- The answer of the first call that did not fail, and the sinks that it left. -/
def installed? (programs : Programs) : World → List Step → Option (Option Text × List Sink)
  | _, [] => none
  | w, .changed f :: steps => installed? programs (Step.run programs w (.changed f)) steps
  | w, .asked r :: steps =>
    match setUpBy r programs w with
    | (.ok path, w') => some (path, w'.journal.sinks)
    | (.error _, w') => installed? programs w' steps

/-- Once the journal is set up, no step changes what it was set up with. -/
theorem after_of_setUp {path : Option Text} (steps : List Step)
    (hw : w.journal.setUp = some path) : (after programs w steps).journal.setUp = some path ∧
      (after programs w steps).journal.sinks = w.journal.sinks := by
  induction steps generalizing w with
  | nil => exact ⟨hw, rfl⟩
  | cons step steps ih =>
    have hstep : (step.run programs w).journal.setUp = some path ∧
        (step.run programs w).journal.sinks = w.journal.sinks := by
      cases step with
      | asked r => rw [Step.run, setUpBy_of_setUp programs r hw]; exact ⟨hw, rfl⟩
      | changed f => exact ⟨hw, rfl⟩
    obtain ⟨hset, hsinks⟩ := ih hstep.1
    exact ⟨hset, hsinks.trans hstep.2⟩

theorem Installs.setUp_of_ok {path : Option Text} {w' : World} (h : Installs r w (.ok path) w') :
    w'.journal.setUp = some path := by
  cases h with
  | done _ hj _ => rw [hj]

theorem Installs.of_error {f : Failure} {w' : World} (h : Installs r w (.error f) w') :
    w'.journal = { w.journal with threshold := r.threshold } := by
  cases h with
  | failed _ => rfl

theorem Installs.threshold {res : Except Failure (Option Text)} {w' : World}
    (h : Installs r w res w') : w'.journal.threshold = r.threshold := by
  cases h with
  | done _ hj _ => rw [hj]
  | failed _ => rfl

/-- After some steps the journal is set up as the first call that did not fail left it. If there was
none, it is not set up and has the sinks that it had. -/
theorem after_setUp (steps : List Step) (hw : w.journal.setUp = none) :
    ((after programs w steps).journal.setUp, (after programs w steps).journal.sinks) =
      match installed? programs w steps with
      | some (path, sinks) => (some path, sinks)
      | none => (none, w.journal.sinks) := by
  induction steps generalizing w with
  | nil => exact congrArg (·, w.journal.sinks) hw
  | cons step steps ih =>
    cases step with
    | changed f => exact ih (w := { w with host := f w.host }) hw
    | asked r =>
      have hcall := setUpBy_installs programs r hw
      have hafter : after programs w (.asked r :: steps) =
          after programs (setUpBy r programs w).2 steps := rfl
      rw [hafter]
      unfold installed?
      rcases hrun : setUpBy r programs w with ⟨f | path, w'⟩ <;> rw [hrun] at hcall
      · have hj := hcall.of_error
        have hrest := ih (w := w') (by rw [hj]; exact hw)
        rwa [hj] at hrest
      · obtain ⟨hset, hsinks⟩ := after_of_setUp steps hcall.setUp_of_ok
        exact Prod.ext hset hsinks

/-- After any calls and changes of the files, a call sets the threshold. If one of the calls before
it did not fail, it gives the answer of the first such call and does nothing else: the sinks are
those that were installed then. If all calls before it failed, no sinks were installed yet, and it
installs them unless it fails: a log file if it is asked for, under its own path if that can be
opened, else the one in the current directory, and then the console. It fails if the other log file
cannot be opened either, or if the path is one that the system cannot be asked about. -/
theorem setUpBy_once (programs : Programs) {w : World} (hw : w.journal.setUp = none)
    (before : List Step) (r : Request) :
    let w₁ := after programs w before
    let call := setUpBy r programs w₁
    call.2.journal.threshold = r.threshold ∧
      (∀ path sinks, installed? programs w before = some (path, sinks) →
        w₁.journal.sinks = sinks ∧
          call = (.ok path, { w₁ with journal := { w₁.journal with threshold := r.threshold } })) ∧
      (installed? programs w before = none →
        w₁.journal.sinks = w.journal.sinks ∧ Installs r w₁ call.1 call.2) := by
  intro w₁ call
  have hbefore : (w₁.journal.setUp, w₁.journal.sinks) = _ := after_setUp before hw
  cases hi : installed? programs w before with
  | some installed =>
    rw [hi] at hbefore
    obtain ⟨hset, hsinks⟩ := Prod.mk.inj hbefore
    have hcall := setUpBy_of_setUp programs r hset
    refine ⟨congrArg (·.2.journal.threshold) hcall, ?_, nofun⟩
    rintro path sinks ⟨⟩
    exact ⟨hsinks, hcall⟩
  | none =>
    rw [hi] at hbefore
    obtain ⟨hset, hsinks⟩ := Prod.mk.inj hbefore
    have hcall := setUpBy_installs programs r hset
    exact ⟨hcall.threshold, nofun, fun _ => ⟨hsinks, hcall⟩⟩

/-- A call whose path leads through a file, and for which a directory stands in the place of the
other log file, fails; once the file is gone the same call sets up the journal, and a later one for
the console gives its answer. -/
theorem setUpBy_once_retried :
    let programs := Script.programs [] 0
    let w := World.untouched
      ⟨⟨[(["log"], .file 0 []), (["image-updater.log"], .directory)], 1⟩, []⟩
    let path : Text := "log/x.log"
    let sinks : List Sink := [.file (some 1)]
    let r : Request := { path, threshold := .debug, console := false }
    let before : List Step :=
      [.asked r, .changed fun h => { h with tree := h.tree.erase ["log"] }, .asked r]
    let later : Request := { path := none, threshold := .error, console := true }
    w.journal.setUp = none ∧ installed? programs w [.asked r] = none ∧
      installed? programs w before = some (some path, sinks) ∧
      (after programs w before).journal.sinks = sinks ∧
      (setUpBy later programs (after programs w before)).1 = .ok (some path) := by
  intro programs w path sinks r before later
  have hi : installed? programs w before = some (some path, sinks) := by decide +kernel
  obtain ⟨hsinks, hcall⟩ :=
    (setUpBy_once programs (w := w) rfl before later).2.1 _ _ hi
  exact ⟨rfl, by decide +kernel, hi, hsinks, congrArg Prod.fst hcall⟩

/-- A path with a surrogate that stands for no byte makes a call fail, although the log file in the
current directory can be opened. -/
theorem setUpBy_notEncodable :
    let w := World.untouched .workbench
    let r : Request :=
      { path := some (⟨[.surrogate 0]⟩ ++ ".log"), threshold := .warning, console := true }
    (setUpBy r (Script.programs [] 0) w).1 = .error (.refused .notEncodable) ∧
      (w.host.openToAppend (fallbackPath w.host)).1 = .ok (some 2) := by
  intro w r
  exact ⟨eq_error_of_errorOf (by decide +kernel), eq_ok_of_toOption (by decide +kernel)⟩

end FatInstall.Journal
