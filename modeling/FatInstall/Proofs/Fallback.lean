import FatInstall.Proofs.GivenBack
import FatInstall.Proofs.Orderly

/-!
# When the offline way is fallen back to

A way is chosen by making the scratch directory, mounting the image there and looking whether the
mount is active. Whatever of this is refused or fails with a status makes the offline way the one
to take. What has no status is no such failure: the choice fails with it.

* `Tools.Tries`: how tools, dry or not, try a command.
* `Job.Choice`: the ways in which a choice can go, for jobs that are dry, live or half dry.
* `selectRoute_fallsBack`: when there is a choice, and which.
* `selectRoute_denied`: a mount that may not be started leaves no choice.
-/

namespace FatInstall

/-! ## Runs without starts -/

theorem startsOf_eq_map (trace : List Event) : startsOf trace = (callsOf trace).map Prod.fst := by
  simp only [startsOf, callsOf, List.map_filterMap]
  congr 1
  funext e
  cases e <;> rfl

theorem callsOf_eq_nil {trace : List Event} (h : startsOf trace = []) : callsOf trace = [] := by
  rwa [startsOf_eq_map, List.map_eq_nil_iff] at h

theorem answered_of_startsOf {programs : Programs} {trace : List Event} (h : startsOf trace = []) :
    ∀ earlier, Answered programs earlier trace := by
  induction trace with
  | nil => exact fun _ => trivial
  | cons e trace ih =>
    intro earlier
    cases e with
    | started s r => cases h
    | _ => exact ih h earlier

theorem Run.Writes.obeys {α : Type} {r : Run α} {res : Except Failure α}
    {records : List Journal.Record} (hr : r.Writes res records) {s : Scene} {h : Host} :
    r.Obeys s h fun acts res' _ => callsOf acts = [] ∧ res' = res := by
  intro w hw hh
  obtain ⟨hres, hj, -, added, ht, hs, -⟩ := hr s.programs w
  refine ⟨added, ht, hj, answered_of_startsOf hs _, ?_, hres⟩
  rw [callsOf_actsOf, callsOf_eq_nil hs]

/-! ## Tries -/

/-- How tools try a command: dry ones start nothing and take it for a success, others start it once
and go by its reply. -/
inductive Tools.Tries (t : Tools) (c : Call) : List (Start × Reply) → Except Failure Bool → Prop
  | dry : t.dryRun = true → t.Tries c [] (.ok true)
  | started {r : Reply} {res : Except Failure Bool} : t.dryRun = false → r.succeeded = res →
      t.Tries c [(t.start c, r)] res

namespace Tools.Tries

variable {t : Tools} {c : Call} {calls : List (Start × Reply)} {res : Except Failure Bool}

/-- A try that does not end well started its command. -/
theorem started_of_ne (ht : t.Tries c calls res) (hres : res ≠ .ok true) :
    t.dryRun = false ∧ ∃ r, calls = [(t.start c, r)] ∧ r.succeeded = res := by
  cases ht with
  | dry _ => exact (hres rfl).elim
  | started hd hr => exact ⟨hd, _, rfl, hr⟩

/-- A try has an answer exactly if its command, if it started one, ended with a status. -/
theorem hasStatus_iff (ht : t.Tries c calls res) :
    (∃ b, res = .ok b) ↔ ∀ x ∈ calls, x.2.HasStatus := by
  cases ht with
  | dry _ => exact iff_of_true ⟨true, rfl⟩ (by simp)
  | started _ hr =>
    simp only [List.mem_singleton, forall_eq, Reply.HasStatus, ← hr]
    constructor
    · rintro ⟨b, hb⟩
      exact Reply.verdict_of_succeeded hb
    · rintro ⟨n, hn⟩
      exact ⟨n == 0, by rw [Reply.succeeded, hn]; rfl⟩

end Tools.Tries

/-- A run tries a command if dry tools make it write its record only, and others ask with it. -/
theorem Run.obeys_tries {t : Tools} {c : Call} {r : Run Bool} {s : Scene} {h : Host}
    (hdry : t.dryRun = true → r.Writes (.ok true) [t.record c])
    (hlive : t.dryRun = false → r.Obeys s h (s.asks (t.start c) Reply.succeeded h)) :
    r.Obeys s h fun acts res _ => t.Tries c (callsOf acts) res := by
  cases ht : t.dryRun with
  | true =>
    refine (hdry ht).obeys.mono ?_
    rintro acts res - ⟨ha, rfl⟩
    rw [ha]
    exact .dry ht
  | false =>
    refine (hlive ht).mono ?_
    rintro acts res - ⟨r, -, rfl, rfl⟩
    exact .started ht rfl

/-! ## Choices -/

namespace Job

variable {j : Job} {h : Host}

/-- What comes of making the scratch directory. A dry job only says that it would. -/
def scratchOutcome (j : Job) (h : Host) : Except Host.Refusal Unit :=
  if j.dryRun then .ok () else (h.makeDirectory j.mountDir).1

/-- The system is asked for the scratch directory, unless the job is dry, or the directory's path
is one that the system cannot be asked about. -/
theorem isAskable_iff : (j.dryRun = true ∨ Host.unspeakable? j.mountDir = none) ↔
    ∀ why, j.scratchOutcome h = .error why → why.isBySystem = true := by
  unfold scratchOutcome Host.makeDirectory
  cases hd : j.dryRun with
  | true => simp
  | false =>
    cases hu : Host.unspeakable? j.mountDir with
    | none => simpa using fun why hw => Host.isBySystem_of_makeUpTo hw
    | some why => simp [Host.isBySystem_of_unspeakable hu]

/-- How a choice of the way goes, with the commands that it starts. -/
inductive Choice (j : Job) (h : Host) : List (Start × Reply) → Except Failure Route → Prop
  | unspeakable {why : Host.Refusal} : j.scratchOutcome h = .error why → why.isBySystem = false →
      Choice j h [] (.error (.refused why))
  | refused {why : Host.Refusal} : j.scratchOutcome h = .error why → why.isBySystem = true →
      Choice j h [] (.ok .offline)
  | broken {xs : List (Start × Reply)} {f : Failure} : j.scratchOutcome h = .ok () →
      j.tools.Tries (.mount j.image j.mountDir) xs (.error f) → Choice j h xs (.error f)
  | unmounted {xs : List (Start × Reply)} : j.scratchOutcome h = .ok () →
      j.tools.Tries (.mount j.image j.mountDir) xs (.ok false) → Choice j h xs (.ok .offline)
  | unchecked {xs ys : List (Start × Reply)} {f : Failure} : j.scratchOutcome h = .ok () →
      j.tools.Tries (.mount j.image j.mountDir) xs (.ok true) →
      j.tools.Tries (.mountpoint j.mountDir) ys (.error f) → Choice j h (xs ++ ys) (.error f)
  | inactive {xs ys : List (Start × Reply)} : j.scratchOutcome h = .ok () →
      j.tools.Tries (.mount j.image j.mountDir) xs (.ok true) →
      j.tools.Tries (.mountpoint j.mountDir) ys (.ok false) → Choice j h (xs ++ ys) (.ok .offline)
  | active {xs ys : List (Start × Reply)} : j.scratchOutcome h = .ok () →
      j.tools.Tries (.mount j.image j.mountDir) xs (.ok true) →
      j.tools.Tries (.mountpoint j.mountDir) ys (.ok true) → Choice j h (xs ++ ys) (.ok .mounted)

/-! ## Runs that choose -/

section

open Run

variable {s : Scene}

theorem obeys_makeScratchDir : j.createScratchDir.Obeys s h fun acts res _ =>
    callsOf acts = [] ∧ res = (j.scratchOutcome h).mapError .refused := by
  unfold createScratchDir scratchOutcome
  split
  · exact obeys_log ⟨rfl, rfl⟩
  · exact obeys_make ⟨rfl, rfl⟩

/-- Trying to mount decides the choice: a failure of the kind `mountUnavailable` is the one that
the offline way is taken after, and no other failure of the program's own comes of it. -/
def Attempt (j : Job) (h : Host) (calls : List (Start × Reply)) : Except Failure Unit → Prop
  | .ok () => j.Choice h calls (.ok .mounted)
  | .error (.update fault) => fault.kind = .mountUnavailable ∧ j.Choice h calls (.ok .offline)
  | .error f => j.Choice h calls (.error f)

/-- A command without a status is no failure of the program's own. -/
theorem Attempt.of_error {calls xs : List (Start × Reply)} {c : Call} {f : Failure}
    (ht : j.tools.Tries c xs (.error f)) (hc : j.Choice h calls (.error f)) :
    j.Attempt h calls (.error f) := by
  cases f with
  | update fault =>
    obtain ⟨-, r, -, hr⟩ := ht.started_of_ne (by simp)
    exact (r.verdict_ne_update fault (Reply.succeeded_eq_error.1 hr)).elim
  | _ => exact hc

theorem obeys_attemptMount :
    j.probeMount.Obeys s h fun acts res _ => j.Attempt h (callsOf acts) res := by
  unfold probeMount
  refine Obeys.bind_attempt obeys_makeScratchDir ?_
  rintro acts _ m ⟨hacts, rfl⟩
  simp only [callsOf_append, hacts, List.nil_append]
  cases hmade : j.scratchOutcome h with
  | error why =>
    simp only [mapError_error]
    split
    · next hw => exact obeys_fail ⟨rfl, .refused hmade hw⟩
    · next hw => exact obeys_fail (.unspeakable hmade (by simpa using hw))
  | ok _ =>
    refine Obeys.bind (Run.obeys_tries (Tools.writes_mount · _ _) (obeys_mount · _ _)) ?_ ?_
    · intro xs f m hx
      exact .of_error hx (.broken hmade hx)
    · intro xs b m hx
      cases b with
      | false =>
        refine obeys_fail ⟨rfl, ?_⟩
        rw [List.append_nil]
        exact .unmounted hmade hx
      | true =>
        simp only [Bool.not_true, Bool.false_eq_true, if_false]
        refine Obeys.bind (Run.obeys_tries (Tools.writes_isMountpoint · _)
          (obeys_isMountpoint · _)) ?_ ?_
        · intro ys f m hy
          rw [callsOf_append]
          exact .of_error hy (.unchecked hmade hx hy)
        · intro ys b m hy
          cases b with
          | false =>
            refine obeys_fail ⟨rfl, ?_⟩
            rw [List.append_nil, callsOf_append]
            exact .inactive hmade hx hy
          | true =>
            refine obeys_pure ?_
            rw [List.append_nil, callsOf_append]
            exact .active hmade hx hy

theorem obeys_choose :
    j.selectRoute.Obeys s h fun acts res _ => j.Choice h (callsOf acts) res := by
  unfold selectRoute
  refine Obeys.bind_attempt obeys_attemptMount fun xs res m hx => ?_
  cases res with
  | ok _ =>
    refine obeys_pure ?_
    rwa [List.append_nil]
  | error f =>
    cases f with
    | update fault =>
      obtain ⟨hk, hc⟩ := hx
      simp only [hk, if_true]
      refine Obeys.after_log (obeys_pure ?_)
      rwa [List.append_nil]
    | _ =>
      refine obeys_fail ?_
      rwa [List.append_nil]

end

/-! ## The choice -/

/-- Is the image mounted as far as the job can tell: was the scratch directory made, and did the
mount and the look at the mountpoint succeed, as dry tools take for granted? -/
def IsMounted (j : Job) (h : Host) (calls : List (Start × Reply)) : Prop :=
  j.scratchOutcome h = .ok () ∧ (j.tools.dryRun = true ∨ ∃ r r',
    calls = [(j.tools.start (.mount j.image j.mountDir), r),
      (j.tools.start (.mountpoint j.mountDir), r')] ∧ r.verdict = .ok 0 ∧ r'.verdict = .ok 0)

namespace Choice

variable {calls : List (Start × Reply)} {res : Except Failure Route}

/-- There is a choice exactly if the system can be asked for the scratch directory and every
command that was started ended with a status. -/
theorem isOk_iff (hc : j.Choice h calls res) : (∃ route, res = .ok route) ↔
    (j.dryRun = true ∨ Host.unspeakable? j.mountDir = none) ∧ ∀ c ∈ calls, c.2.HasStatus := by
  rw [isAskable_iff (h := h)]
  cases hc with
  | unspeakable hs hw => simp [hs, hw]
  | refused hs hw => simp [hs, hw]
  | broken hs hx | unmounted hs hx => simp only [hs, ← hx.hasStatus_iff]; simp
  | unchecked hs hx hy | inactive hs hx hy | active hs hx hy =>
    simp only [hs, List.forall_mem_append, ← hx.hasStatus_iff, ← hy.hasStatus_iff]
    simp

/-- The way through the mount is chosen exactly if the image is mounted. -/
theorem eq_mounted_iff (hc : j.Choice h calls res) :
    res = .ok .mounted ↔ j.IsMounted h calls := by
  cases hc with
  | unspeakable hs _ | refused hs _ =>
    exact iff_of_false (by simp) fun hm => by cases hs.symm.trans hm.1
  | broken _ hx | unmounted _ hx =>
    obtain ⟨hd, r, rfl, -⟩ := hx.started_of_ne (by simp)
    refine iff_of_false (by simp) ?_
    rintro ⟨-, hd' | ⟨_, _, hcalls, -⟩⟩
    · cases hd.symm.trans hd'
    · cases hcalls
  | unchecked _ _ hy | inactive _ _ hy =>
    obtain ⟨hd, r, rfl, hr⟩ := hy.started_of_ne (by simp)
    refine iff_of_false (by simp) ?_
    rintro ⟨-, hd' | ⟨_, r', hcalls, -, hv⟩⟩
    · cases hd.symm.trans hd'
    · obtain rfl : r = r' := by simpa using congrArg List.getLast? hcalls
      cases hr.symm.trans (Reply.succeeded_eq_ok_true.2 hv)
  | active hs hx hy =>
    refine iff_of_true rfl ⟨hs, ?_⟩
    cases hx with
    | dry hd => exact .inl hd
    | started hd hr =>
      cases hy with
      | dry hd' => exact .inl hd'
      | started _ hr' =>
        exact .inr ⟨_, _, rfl, Reply.succeeded_eq_ok_true.1 hr, Reply.succeeded_eq_ok_true.1 hr'⟩

end Choice

end Job

/-- A way is chosen exactly if the system can be asked for the scratch directory, and every command
that is started ends with a status: a command that does not exist has one, and one that may not be
started, that writes what is no text or that the user interrupts has none. The way through the
mount is chosen exactly if the scratch directory could be made, the mount succeeded and the look at
the mountpoint after it did so too; in all other cases the offline way is. -/
theorem selectRoute_fallsBack (j : Job) (programs : Programs) (w : World) :
    ∃ added, (j.selectRoute programs w).2.trace = w.trace ++ added ∧
      Answered programs (startsOf w.trace) added ∧
      ((∃ route, (j.selectRoute programs w).1 = .ok route) ↔
        (j.dryRun = true ∨ Host.unspeakable? j.mountDir = none) ∧
          ∀ c ∈ callsOf added, c.2.HasStatus) ∧
      ((j.selectRoute programs w).1 = .ok .mounted ↔ j.IsMounted w.host (callsOf added)) ∧
      ((j.selectRoute programs w).1 = .ok .offline ↔
        ((j.dryRun = true ∨ Host.unspeakable? j.mountDir = none) ∧
          ∀ c ∈ callsOf added, c.2.HasStatus) ∧ ¬j.IsMounted w.host (callsOf added)) := by
  let s : Scene := ⟨programs, w.journal.openLogs, fun _ _ => True, fun _ _ _ => trivial⟩
  obtain ⟨added, ht, -, ha, hc⟩ :=
    Job.obeys_choose (s := s) (j := j) (h := w.host.blank w.journal.openLogs) w rfl rfl
  have hc : j.Choice (w.host.blank w.journal.openLogs) (callsOf added)
      (j.selectRoute programs w).1 := by
    rwa [callsOf_actsOf] at hc
  have hm : j.IsMounted (w.host.blank w.journal.openLogs) (callsOf added) ↔
      j.IsMounted w.host (callsOf added) := by
    simp only [Job.IsMounted, Job.scratchOutcome, Host.makeDirectory_blank]
  have hok := hc.isOk_iff
  have hmounted := hc.eq_mounted_iff.trans hm
  refine ⟨added, ht, ha, hok, hmounted, ?_⟩
  rw [← hok, ← hmounted]
  constructor
  · intro ho
    exact ⟨⟨_, ho⟩, by simp [ho]⟩
  · rintro ⟨⟨route, hr⟩, hn⟩
    cases route with
    | mounted => exact (hn hr).elim
    | offline => exact hr

/-- A mount that may not be started leaves no choice, and neither does a look at the mountpoint. -/
theorem selectRoute_denied :
    let j : Job := ⟨Path.ofString "app.bin", Path.ofString "disk.img", Path.ofString "mnt", "/sbin",
      ⟨true, false⟩, false⟩
    let choice (command : String) := (j.selectRoute
      (Script.programs [(command, [⟨[], .denied⟩])] 0) (World.untouched .workbench)).1
    choice "mount" = .error (.refused (.system .denied "sudo")) ∧
      choice "mountpoint" = .error (.refused (.system .denied "mountpoint")) := by
  intro j choice
  exact ⟨eq_error_of_errorOf (by decide +kernel), eq_error_of_errorOf (by decide +kernel)⟩

end FatInstall
