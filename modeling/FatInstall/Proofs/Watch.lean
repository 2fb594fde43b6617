import FatInstall.Proofs.GivenBack
import FatInstall.Proofs.Run.History
import FatInstall.World.Script

/-!
# What is done while something is mounted

Removing the scratch directory while the image is mounted there deletes the files inside the image,
and editing the image offline while it is mounted damages it. Whether something is mounted is not
known to the program; it asks `mountpoint`, and takes every status but zero for a no.

* `Shift`, `Story`: how the commands of a run can change whether something is mounted. A story is
  one that their replies admit.
* `Event.NeedsUnmounted`: the removal of the scratch directory, and the commands that edit the
  image.
* `Guarded`: each of these comes after a check, and no other check comes after it.
* `update_mountedBetween_iff`: something can be mounted at such a moment exactly if the check was
  blind: the directory was not found, or there was no `mountpoint` to ask.
-/

namespace FatInstall

/-! ## Mounted or not -/

/-- The name of the command that is started; a `sudo` before it does not count. -/
def Start.name (s : Start) : Text := (unprivileged s.argv).headD .empty

theorem Tools.name_start (t : Tools) (c : Call) : (t.start c).name = c.name := by
  rw [Start.name, Call.name, Tools.start, unprivileged_argv]

/-- Did the command run? -/
def Reply.IsOfRun : Reply → Prop
  | .unstarted _ => False
  | _ => True

/-- Does the reply of a check agree with whether something is mounted? A check that ends has the
status zero exactly if something is. -/
def Reply.Reports : Reply → Bool → Prop
  | .exited status _ _, mounted => status = 0 ↔ mounted = true
  | _, _ => True

/-- How a command with its reply can change whether something is mounted on the scratch
directory. -/
inductive Shift : Start × Reply → Bool → Bool → Prop
  | stays {s : Start} {r : Reply} {mounted : Bool} :
      (s.name = "mountpoint" → r.Reports mounted) → Shift (s, r) mounted mounted
  | mounts {s : Start} {r : Reply} : s.name = "mount" → r.IsOfRun → Shift (s, r) false true
  | unmounts {s : Start} {r : Reply} : s.name = "umount" → r.IsOfRun →
      (∀ n out err, r = .exited n out err → n = 0) → Shift (s, r) true false

/-- What can become of it over several commands. -/
inductive Story : Bool → List (Start × Reply) → Bool → Prop
  | nil {mounted : Bool} : Story mounted [] mounted
  | cons {c : Start × Reply} {cs : List (Start × Reply)} {b b' b'' : Bool} :
      Shift c b b' → Story b' cs b'' → Story b (c :: cs) b''

/-- Can something be mounted between the two parts of a trace? -/
def MountedBetween (before after : List Event) : Prop :=
  ∃ b b', Story b (callsOf before) true ∧ Story true (callsOf after) b'

section

variable {cs : List (Start × Reply)} {b : Bool}

theorem Shift.of_true {c : Start × Reply} (h : Shift c b true) (hc : c.1.name ≠ "mount") :
    b = true ∧ (c.1.name = "mountpoint" → c.2.Reports true) := by
  cases h with
  | stays hr => exact ⟨rfl, hr⟩
  | mounts hn _ => exact (hc hn).elim

/-- Without a mount, what is mounted in the end was mounted all along, and no check denies it. -/
theorem Story.of_true (h : Story b cs true) (hm : ∀ c ∈ cs, c.1.name ≠ "mount") :
    b = true ∧ ∀ c ∈ cs, c.1.name = "mountpoint" → c.2.Reports true := by
  induction cs generalizing b with
  | nil =>
    cases h
    exact ⟨rfl, by simp⟩
  | cons c cs ih =>
    obtain ⟨hc, hcs⟩ := List.forall_mem_cons.1 hm
    cases h with
    | cons hs h =>
      obtain ⟨rfl, hr⟩ := ih h hcs
      obtain ⟨rfl, hrc⟩ := hs.of_true hc
      exact ⟨rfl, List.forall_mem_cons.2 ⟨hrc, hr⟩⟩

/-- A mount that comes first, before all checks, does not unsay them. -/
theorem Story.undenied (h : Story b cs true) (hm : ∀ c ∈ cs.tail, c.1.name ≠ "mount") :
    ∀ c ∈ cs, c.1.name = "mountpoint" → c.2.Reports true := by
  cases h with
  | nil => simp
  | @cons c cs _ _ _ hs h =>
    obtain ⟨rfl, hr⟩ := h.of_true hm
    refine List.forall_mem_cons.2 ⟨fun hc => (hs.of_true ?_).2 hc, hr⟩
    rw [hc]
    decide

/-- Something can be mounted all along if no check denies it. -/
theorem story_true (h : ∀ c ∈ cs, c.1.name = "mountpoint" → c.2.Reports true) :
    Story true cs true := by
  induction cs with
  | nil => exact .nil
  | cons c cs ih =>
    obtain ⟨hc, hcs⟩ := List.forall_mem_cons.1 h
    exact .cons (.stays hc) (ih hcs)

end

/-! ## Checks -/

namespace Event

/-- Does the event remove the scratch directory or edit the image, so that nothing may be mounted
then? -/
def NeedsUnmounted : Event → Prop
  | removing _ => True
  | started s _ => s.name = "mmd" ∨ s.name = "mcopy"
  | _ => False

/-- Is it a check whether something is mounted? -/
def IsCheck : Event → Prop
  | started s _ => s.name = "mountpoint"
  | _ => False

@[simp] theorem needsUnmounted_sought (p : Path) (found : Bool) :
    ¬(sought p found).NeedsUnmounted := id

@[simp] theorem needsUnmounted_making (p : Path) : ¬(making p).NeedsUnmounted := id

@[simp] theorem needsUnmounted_line (text : Text) : ¬(line text).NeedsUnmounted := id

@[simp] theorem isCheck_line (text : Text) : ¬(line text).IsCheck := id

@[simp] theorem isCheck_removing (p : Path) : ¬(removing p).IsCheck := id

/-- Does the event let the run go on as if nothing were mounted on the directory? The directory is
not found, or a check has any status but zero. -/
def Clears (d : Path) : Event → Prop
  | sought p found => p = d ∧ found = false
  | started s r => s.name = "mountpoint" ∧ ∃ n, r.verdict = .ok n ∧ n ≠ 0
  | _ => False

/-- Does the event let the run go on without an answer? The directory is not found, or there is no
`mountpoint` to ask. -/
def IsBlind (d : Path) : Event → Prop
  | sought p found => p = d ∧ found = false
  | started s r => s.name = "mountpoint" ∧ ∃ p, r = .unstarted (.system .missing p)
  | _ => False

end Event

theorem mem_callsOf {s : Start} {r : Reply} {t : List Event} :
    (s, r) ∈ callsOf t ↔ .started s r ∈ t := by
  simp only [callsOf, List.mem_filterMap]
  constructor
  · rintro ⟨e, he, hc⟩
    cases e <;> cases hc
    exact he
  · exact fun h => ⟨_, h, rfl⟩

/-- No check in the trace denies that something is mounted on the directory, and the trace goes on
as if nothing were. -/
structure Unchecked (d : Path) (trace : List Event) : Prop where
  undenied : ∀ c ∈ callsOf trace, c.1.name = "mountpoint" → c.2.Reports true
  blind : ∃ e ∈ trace, e.IsBlind d

theorem Reply.missing_of_reports {r : Reply} {n : Int} (hv : r.verdict = .ok n) (hn : n ≠ 0)
    (hr : r.Reports true) : ∃ p, r = .unstarted (.system .missing p) := by
  rcases r with ⟨k, _, _⟩ | (⟨_ | _, p⟩ | _ | _ | _) | _ | _ <;> cases hv
  · exact (hn (hr.2 rfl)).elim
  · exact ⟨p, rfl⟩

/-- What lets a run go on while no check denies that something is mounted is blind. -/
theorem Event.Clears.isBlind {d : Path} {e : Event} (h : e.Clears d)
    (hr : ∀ s r, e = .started s r → s.name = "mountpoint" → r.Reports true) : e.IsBlind d := by
  cases e with
  | sought p found => exact h
  | started s r =>
    obtain ⟨hn, n, hv, hn0⟩ := h
    exact ⟨hn, Reply.missing_of_reports hv hn0 (hr s r rfl hn)⟩
  | _ => exact h

/-- Everything that needs nothing to be mounted comes after an event that clears the directory, and
no check comes after it. -/
def Guarded (d : Path) (trace : List Event) : Prop :=
  ∀ before e after, trace = before ++ e :: after → e.NeedsUnmounted →
    (∃ x ∈ before, x.Clears d) ∧ ∀ x ∈ after, ¬x.IsCheck

section

variable {d : Path} {xs ys : List Event}

theorem guarded_harmless (h : ∀ e ∈ xs, ¬e.NeedsUnmounted) : Guarded d xs := by
  rintro before e after rfl he
  exact (h e (by simp) he).elim

/-- Harmless events may come before. -/
theorem Guarded.prepend (hy : Guarded d ys) (hx : ∀ e ∈ xs, ¬e.NeedsUnmounted) :
    Guarded d (xs ++ ys) := by
  intro before e after heq he
  obtain ⟨zs, rfl, hz⟩ | ⟨zs, rfl, hz⟩ := List.append_eq_append_iff.1 heq
  · obtain ⟨⟨x, hm, hc⟩, ha⟩ := hy zs e after hz he
    exact ⟨⟨x, List.mem_append_right _ hm, hc⟩, ha⟩
  · cases zs with
    | nil =>
      obtain ⟨⟨x, hm, -⟩, -⟩ := hy [] e after hz.symm he
      cases hm
    | cons z zs =>
      cases hz
      exact (hx e (by simp) he).elim

/-- Everything but a check may come after, if the directory is cleared or what comes is harmless. -/
theorem Guarded.append (hx : Guarded d xs) (hy : ∀ e ∈ ys, ¬e.IsCheck)
    (hc : (∃ x ∈ xs, x.Clears d) ∨ ∀ e ∈ ys, ¬e.NeedsUnmounted) : Guarded d (xs ++ ys) := by
  intro before e after heq he
  have hin : e ∈ ys → ∃ x ∈ xs, x.Clears d := fun hm => hc.resolve_right fun h => h e hm he
  obtain ⟨zs, rfl, hz⟩ | ⟨zs, rfl, hz⟩ := List.append_eq_append_iff.1 heq
  · subst hz
    obtain ⟨x, hm, hx⟩ := hin (by simp)
    exact ⟨⟨x, List.mem_append_left _ hm, hx⟩, fun y hm => hy y (by simp [hm])⟩
  · cases zs with
    | nil =>
      cases hz
      obtain ⟨x, hm, hx⟩ := hin List.mem_cons_self
      rw [List.append_nil] at hm
      exact ⟨⟨x, hm, hx⟩, fun y hm => hy y (List.mem_cons_of_mem _ hm)⟩
    | cons z zs =>
      cases hz
      obtain ⟨hb, ha⟩ := hx before e zs rfl he
      exact ⟨hb, fun y hm => (List.mem_append.1 hm).elim (ha y) (hy y)⟩

end

/-! ## The parts of an update -/

/-- Does the command edit the image file? -/
def Call.EditsImage : Call → Prop
  | mmd _ _ | mcopy _ _ _ => True
  | _ => False

/-- Does the command say whether something is mounted? -/
def Call.IsCheck : Call → Prop
  | mountpoint _ => True
  | _ => False

namespace Job

variable {touch : Host → Host → Prop} {j : Job} {h h' : Host} {acts : List Event}

@[simp] theorem needsUnmounted_event (c : Call) (r : Reply) :
    (j.event c r).NeedsUnmounted ↔ c.EditsImage := by
  rw [event, Event.NeedsUnmounted, Tools.name_start]
  cases c <;> simp only [Call.name, Call.words, List.headD_cons, Call.EditsImage] <;> decide

@[simp] theorem isCheck_event (c : Call) (r : Reply) : (j.event c r).IsCheck ↔ c.IsCheck := by
  rw [event, Event.IsCheck, Tools.name_start]
  cases c <;> simp only [Call.name, Call.words, List.headD_cons, Call.IsCheck] <;> decide

theorem clears_event {r : Reply} {n : Int} (hv : r.verdict = .ok n) (hn : n ≠ 0) :
    (j.event (.mountpoint j.mountDir) r).Clears j.mountDir := by
  refine ⟨?_, n, hv, hn⟩
  rw [Tools.name_start]
  rfl

theorem Removal.guarded {res : Except Failure Bool} (hr : j.Removal touch h acts res h') :
    Guarded j.mountDir acts := by
  cases hr with
  | @removed r n b m _ _ hv hn _ =>
    have hchecked : Guarded j.mountDir
        [.sought j.mountDir true, j.event (.mountpoint j.mountDir) r] :=
      guarded_harmless (by simp [Call.EditsImage])
    have hremoving : ∀ e ∈ [Event.removing j.mountDir], ¬e.IsCheck := by simp
    exact hchecked.append hremoving (.inl ⟨_, by simp, clears_event hv hn⟩)
  | _ => exact guarded_harmless (by simp [Call.EditsImage])

/-- A removal that says that the directory is gone has cleared it. -/
theorem Removal.clears (hr : j.Removal touch h acts (.ok true) h') :
    ∃ x ∈ acts, x.Clears j.mountDir := by
  generalize hres : (Except.ok true : Except Failure Bool) = res at hr
  cases hr with
  | absent _ => exact ⟨_, List.mem_singleton.2 rfl, rfl, rfl⟩
  | removed _ _ hv hn _ => exact ⟨_, by simp, clears_event hv hn⟩
  | _ => cases hres

theorem Release.guarded {strict : Bool} {res : Except Failure Unit}
    (hr : j.Release touch strict h acts res h') : Guarded j.mountDir acts := by
  cases hr with
  | @freed r r' _ _ _ _ _ _ _ _ _ _ hrem =>
    have hbefore : ∀ e ∈ [j.event (.umount j.mountDir) r, j.event .sync r'],
        ¬e.NeedsUnmounted := by simp [Call.EditsImage]
    exact hrem.guarded.prepend hbefore
  | _ => exact guarded_harmless (by simp [Call.EditsImage])

theorem Copying.harmless {res : Except Failure Unit} (hc : j.Copying touch h acts res h') :
    ∀ e ∈ acts, ¬e.NeedsUnmounted := by
  cases hc <;> simp [Call.EditsImage]

theorem MountedCourse.guarded {res : Except Failure Placement}
    (hm : j.MountedCourse touch h acts res h') : Guarded j.mountDir acts := by
  cases hm with
  | uncopied hc hr | unreleased hc hr => exact hr.guarded.prepend hc.harmless
  | broken hc _ => exact guarded_harmless hc.harmless
  | done hc hr =>
    have hline : ∀ e ∈ [Event.line "Successfully copied using mount"],
        ¬e.IsCheck ∧ ¬e.NeedsUnmounted := by
      simp
    exact (hr.guarded.append (fun e he => (hline e he).1)
      (.inr fun e he => (hline e he).2)).prepend hc.harmless

theorem Making.unchecked {dirs : List Text} {res : Except Failure Unit}
    (hm : j.Making touch dirs h acts res h') : ∀ e ∈ acts, ¬e.IsCheck := by
  induction hm with
  | done => simp
  | broken _ _ => simp [Call.IsCheck]
  | next _ _ _ ih => exact List.forall_mem_cons.2 ⟨by simp [Call.IsCheck], ih⟩

theorem OfflineCourse.guarded {res : Except Failure Placement}
    (ho : j.OfflineCourse touch h acts res h') : Guarded j.mountDir acts := by
  -- what comes before the removal is harmless
  have hbefore : ∀ r, ∀ e ∈ [.line "Mount failed, using mtools instead...",
      j.event (.umount j.mountDir) r], ¬e.NeedsUnmounted := by simp [Call.EditsImage]
  have hstart : ∀ (r : Reply) {xs : List Event}, Guarded j.mountDir xs → Guarded j.mountDir
      (.line "Mount failed, using mtools instead..." :: j.event (.umount j.mountDir) r :: xs) :=
    fun r xs hx => hx.prepend (hbefore r)
  cases ho with
  | broken _ _ => exact hstart _ (guarded_harmless (by simp))
  | unremoved _ _ hr | mounted _ _ hr => exact hstart _ hr.guarded
  | unmade _ _ hr hm => exact hstart _ (hr.guarded.append hm.unchecked (.inl hr.clears))
  | uncopied _ _ hr hm _ _ =>
    refine hstart _ (hr.guarded.append (List.forall_mem_append.2 ⟨hm.unchecked, ?_⟩)
      (.inl hr.clears))
    simp [Call.IsCheck]
  | done _ _ hr hm _ _ =>
    refine hstart _ (hr.guarded.append (List.forall_mem_append.2 ⟨hm.unchecked, ?_⟩)
      (.inl hr.clears))
    simp [Call.IsCheck]

theorem RouteCourse.guarded {route : Route} {res : Except Failure Placement}
    (hr : j.RouteCourse touch route h acts res h') : Guarded j.mountDir acts := by
  cases route with
  | mounted => exact MountedCourse.guarded hr
  | offline => exact OfflineCourse.guarded hr

theorem Selection.harmless {res : Except Failure Route} (hs : j.Selection touch h acts res h') :
    ∀ e ∈ acts, ¬e.NeedsUnmounted := by
  cases hs <;> simp [Call.EditsImage]

/-- A selection mounts with its first command. -/
theorem Selection.mountFirst {res : Except Failure Route} (hs : j.Selection touch h acts res h') :
    ∀ c ∈ (callsOf acts).tail, c.1.name ≠ "mount" := by
  rcases hs.calls with hx | ⟨r, ⟨hx, -⟩ | ⟨r', hx, -⟩⟩ <;> rw [hx]
  · simp
  · simp
  · rintro c (_ | ⟨_, hc⟩)
    · rw [Tools.name_start]
      change ("mountpoint" : Text) ≠ "mount"
      decide
    · cases hc

/-- The ways into the image mount nothing. -/
theorem RouteCourse.mountsNothing {route : Route} {res : Except Failure Placement}
    (hr : j.RouteCourse touch route h acts res h') : ∀ c ∈ callsOf acts, c.1.name ≠ "mount" := by
  intro x hx
  obtain ⟨c, hc, he⟩ := hr.uses x hx
  rw [he, Tools.name_start]
  rintro hn
  rw [hn] at hc
  exact absurd hc (by decide)

end Job

section

variable {touch : Host → Host → Prop} {source : Path} {settings : Settings} {tools : Option Tools}
  {h h' : Host} {acts : List Event} {res : Except Failure Placement}

theorem Course.guarded {d : Path} (hd : settings.mountDir = .ok d)
    (hc : Course touch source settings tools h acts res h') : Guarded d acts := by
  cases hc with
  | @unselected image _ _ _ _ _ _ _ hj hs =>
    refine guarded_harmless (List.forall_mem_cons.2 ⟨?_, hs.harmless⟩)
    simp [greeting]
  | @selected image _ _ _ _ _ _ _ _ _ _ hj hs hr =>
    cases hd.symm.trans (Settings.mountDir_of_job hj)
    have hgreeting : ∀ e ∈ [greeting source image], ¬e.NeedsUnmounted := by simp [greeting]
    exact (hr.guarded.prepend hs.harmless).prepend hgreeting
  | _ => exact guarded_harmless (by simp)

theorem Course.mountFirst (hc : Course touch source settings tools h acts res h') :
    ∀ c ∈ (callsOf acts).tail, c.1.name ≠ "mount" := by
  cases hc with
  | unselected _ _ _ _ hs => exact hs.mountFirst
  | @selected _ _ _ xs ys _ _ _ _ _ _ _ hs hr =>
    change ∀ c ∈ (callsOf (xs ++ ys)).tail, _
    rw [callsOf_append]
    intro c hc
    cases hx : callsOf xs with
    | nil =>
      rw [hx] at hc
      exact hr.mountsNothing c (List.mem_of_mem_tail hc)
    | cons x cs =>
      rw [hx] at hc
      rcases List.mem_append.1 hc with hm | hm
      · exact hs.mountFirst c (by rw [hx]; exact hm)
      · exact hr.mountsNothing c hm
  | _ => simp [callsOf]

end

/-! ## Updates -/

theorem Event.NeedsUnmounted.isAct {e : Event} (h : e.NeedsUnmounted) : e.isAct = true := by
  cases e with
  | removing _ | started _ _ => rfl
  | _ => exact h.elim

theorem Event.IsCheck.isAct {e : Event} (h : e.IsCheck) : e.isAct = true := by
  cases e with
  | started _ _ => rfl
  | _ => exact h.elim

/-- What needs nothing to be mounted is no check. -/
theorem Event.NeedsUnmounted.not_isCheck {e : Event} (h : e.NeedsUnmounted) : ¬e.IsCheck := by
  cases e with
  | started s r =>
    intro hn
    rcases h with h | h <;> exact absurd (h.symm.trans hn) (by decide)
  | _ => exact id

section

variable {d : Path} {before after : List Event} {e : Event}

/-- Lines of the journal neither need a check nor are one. -/
theorem Guarded.of_actsOf {t : List Event} (h : Guarded d (actsOf t)) : Guarded d t := by
  rintro before e after rfl he
  have hacts : actsOf (before ++ e :: after) = actsOf before ++ e :: actsOf after := by
    rw [actsOf_append]
    exact congrArg _ (List.filter_cons_of_pos he.isAct)
  obtain ⟨⟨x, hx, hc⟩, ha⟩ := h _ e _ hacts he
  refine ⟨⟨x, (List.mem_filter.1 hx).1, hc⟩, fun y hy hcheck => ha y ?_ hcheck⟩
  exact List.mem_filter.2 ⟨hy, hcheck.isAct⟩

/-- A guarded trace whose only mount comes first: something can be mounted when nothing may be
exactly if the directory was cleared by what is no answer. -/
theorem Guarded.mountedBetween_iff (hg : Guarded d (before ++ e :: after)) (he : e.NeedsUnmounted)
    (hm : ∀ c ∈ (callsOf (before ++ e :: after)).tail, c.1.name ≠ "mount") :
    MountedBetween before (e :: after) ↔ Unchecked d before := by
  obtain ⟨⟨x, hx, hclear⟩, hafter⟩ := hg before e after rfl he
  have hcalls : ∀ c ∈ callsOf (e :: after), c.1.name = "mountpoint" → c.2.Reports true := by
    intro c hc hn
    rcases List.mem_cons.1 (mem_callsOf.1 hc) with hce | hc
    · exact (he.not_isCheck (hce ▸ hn)).elim
    · exact (hafter _ hc hn).elim
  constructor
  · rintro ⟨b, b', hstory, -⟩
    have hbefore : ∀ c ∈ (callsOf before).tail, c.1.name ≠ "mount" := by
      intro c hc
      refine hm c ?_
      rw [callsOf_append]
      cases hb : callsOf before with
      | nil =>
        rw [hb] at hc
        cases hc
      | cons y ys =>
        rw [hb] at hc
        exact List.mem_append_left _ hc
    have hr := hstory.undenied hbefore
    refine ⟨hr, x, hx, hclear.isBlind ?_⟩
    rintro s r rfl hn
    exact hr (s, r) (mem_callsOf.2 hx) hn
  · intro h
    exact ⟨true, true, story_true h.undenied, story_true hcalls⟩

end

section

variable {source : Path} {settings : Settings} {tools : Option Tools}

/-- In an update that is not dry, whenever it is about to remove its scratch directory, or starts a
command that edits the image, something can be mounted exactly if no `mountpoint` that ran before
denied it, and the check that it goes by is blind: the directory was not found, or there was no
`mountpoint` to ask. That it was not found is the answer of the host of that moment: what was done
has a history (`History.sought`). -/
theorem update_mountedBetween_iff {programs : Programs} {w : World} {d : Path}
    (hdry : settings.dryRun = false) (htools : ∀ t, tools = some t → t.dryRun = false)
    (hd : settings.mountDir = .ok d) :
    let run := update source settings tools programs w
    ∃ added, run.2.trace = w.trace ++ added ∧
      History programs.machine w.journal.openLogs (startsOf w.trace) w.host added
        (startsOf run.2.trace) run.2.host ∧
      ∀ before e after, added = before ++ e :: after → e.NeedsUnmounted →
        (MountedBetween before (e :: after) ↔ Unchecked d before) := by
  intro run
  let s : Scene := ⟨programs, w.journal.openLogs, fun _ _ => True, fun _ _ _ => trivial⟩
  have hlive : ∀ image j, settings.job source image tools = .ok j → j.IsLive :=
    fun _ _ hj => Settings.isLive_of_job hdry htools hj
  obtain ⟨added, ht, -, -, hc⟩ :=
    obeys_update (s := s) (h := w.host.blank w.journal.openLogs) hlive w rfl rfl
  obtain ⟨-, added', ht', hhistory⟩ := hasHistory_update programs w
  rw [List.append_cancel_left (ht'.symm.trans ht)] at hhistory
  refine ⟨added, ht, hhistory, ?_⟩
  rintro before e after rfl he
  have hfirst := hc.mountFirst
  rw [callsOf_actsOf] at hfirst
  exact (hc.guarded hd).of_actsOf.mountedBetween_iff he hfirst

end

/-- After a mount that failed, and a check that denies that something is mounted, nothing can be
mounted when the scratch directory is removed. -/
theorem update_mountedBetween_denied :
    let w := World.untouched .workbench
    let d := Path.ofString "mnt"
    let tools : Tools := ⟨true, false⟩
    let trace := (update (Path.ofString "app.bin") .empty none (Script.programs
      [("mount", [⟨[], .exits 1 "" ""⟩]), ("mountpoint", [⟨[], .exits 1 "" ""⟩])] 0) w).2.trace
    let before := trace.takeWhile (· ≠ .removing d)
    let after := trace.dropWhile (· ≠ .removing d)
    Settings.empty.dryRun = false ∧ Settings.empty.mountDir = .ok d ∧
      after = .removing d :: after.tail ∧
      (tools.start (.mountpoint d), .exited 1 "" "") ∈ callsOf before ∧
      ¬MountedBetween before after := by
  intro w d tools trace before after
  have hd : Settings.empty.mountDir = .ok d := eq_ok_of_toOption (by decide +kernel)
  have hafter : after = .removing d :: after.tail := by decide +kernel
  have hcheck : (tools.start (.mountpoint d), .exited 1 "" "") ∈ callsOf before := by
    decide +kernel
  refine ⟨rfl, hd, hafter, hcheck, fun hm => ?_⟩
  have hnone : ∀ t : Tools, none = some t → t.dryRun = false := by simp
  obtain ⟨added, ht, -, h⟩ := @update_mountedBetween_iff (Path.ofString "app.bin") .empty none
    _ w d rfl hnone hd
  have hsplit : added = before ++ .removing d :: after.tail := by
    rw [← hafter]
    exact ht.symm.trans List.takeWhile_append_dropWhile.symm
  rw [hafter] at hm
  have hdenied := ((h _ _ _ hsplit trivial).1 hm).undenied _ hcheck (Tools.name_start _ _)
  exact absurd (hdenied.2 rfl) (by decide)

/-- Without a `mountpoint` to ask, after a mount that succeeded and an unmount that failed, the
scratch directory is removed and the image edited while the image is mounted. -/
theorem update_removesMounted :
    let d := Path.ofString "mnt"
    let script : Script := [("mountpoint", [⟨[], .missing⟩]), ("umount", [⟨[], .exits 1 "" ""⟩])]
    let trace := (update (Path.ofString "app.bin") .empty none (script.programs 0)
      (World.untouched .workbench)).2.trace
    let before := trace.takeWhile (· ≠ .removing d)
    let after := trace.dropWhile (· ≠ .removing d)
    after = .removing d :: after.tail ∧ Story false (callsOf before) true ∧
      Story true (callsOf after) true ∧ ∃ c ∈ callsOf after, c.1.name = "mcopy" := by
  intro d script trace before after
  let tools : Tools := ⟨true, false⟩
  have hbefore : callsOf before =
      [(tools.start (.mount (Path.ofString "disk.img") d), .exited 0 "" ""),
        (tools.start (.mountpoint d), .unstarted (.system .missing "mountpoint")),
        (tools.start (.umount d), .exited 1 "" ""),
        (tools.start (.mountpoint d), .unstarted (.system .missing "mountpoint"))] := by
    decide +kernel
  have hafter : callsOf after =
      [(tools.start (.mmd (Path.ofString "disk.img") "/sbin"), .exited 0 "" ""),
        (tools.start (.mcopy (Path.ofString "disk.img") (Path.ofString "app.bin") "/sbin"),
          .exited 0 "" "")] := by
    decide +kernel
  refine ⟨by decide +kernel, ?_, ?_, ?_⟩
  · rw [hbefore]
    have humount : (tools.start (.umount d)).name ≠ "mountpoint" := by decide +kernel
    exact .cons (.mounts (Tools.name_start _ _) trivial) (.cons (.stays fun _ => trivial)
      (.cons (.stays fun hn => (humount hn).elim) (.cons (.stays fun _ => trivial) .nil)))
  · rw [hafter]
    exact .cons (.stays fun _ => iff_of_true rfl rfl)
      (.cons (.stays fun _ => iff_of_true rfl rfl) .nil)
  · rw [hafter]
    exact ⟨_, .tail _ (.head _), Tools.name_start _ _⟩

end FatInstall
