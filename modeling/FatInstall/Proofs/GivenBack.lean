import FatInstall.Proofs.Run.Courses
import FatInstall.World.Script

/-!
# Whether the image is given back

Once the image is mounted, an update goes on to unmount it as long as each command it starts ends
with a status, whatever the status is. A command that cannot be started for another reason than
that it does not exist, or that the user interrupts, ends the update at once, and the image stays
mounted.

* `Job.Uses`: the commands that a part of an update can start.
* `ReachesStart`: a command is started exactly if all those before it ended with a status.
* `update_reachesUmount`: after a mount that succeeded, `umount` is such a command.
-/

namespace FatInstall

/-! ## Commands and their replies -/

/-- The command of an event and its reply. -/
def Event.call? : Event → Option (Start × Reply)
  | .started s r => some (s, r)
  | _ => none

/-- The commands started in a trace, with their replies. -/
def callsOf (trace : List Event) : List (Start × Reply) := trace.filterMap Event.call?

theorem callsOf_append (t u : List Event) : callsOf (t ++ u) = callsOf t ++ callsOf u :=
  List.filterMap_append ..

theorem callsOf_actsOf (trace : List Event) : callsOf (actsOf trace) = callsOf trace := by
  simp only [callsOf, actsOf, List.filterMap_filter]
  congr 1
  funext e
  cases e <;> rfl

/-- Did the command end with a status? -/
def Reply.HasStatus (r : Reply) : Prop := ∃ n, r.verdict = .ok n

theorem Reply.not_hasStatus {r : Reply} {f : Failure} (h : r.verdict = .error f) :
    ¬r.HasStatus := by
  rintro ⟨n, hn⟩
  cases h.symm.trans hn

theorem Reply.hasStatus_of_checked {argv : List Text} {r : Reply} {why : CommandFault}
    (h : r.checked argv = .error (.command why)) : r.HasStatus := by
  rcases r.checked_cases argv with ⟨hv, -⟩ | ⟨_, hv, -⟩ | ⟨f, hv, hc⟩
  · exact ⟨0, hv⟩
  · exact ⟨_, hv⟩
  · cases h.symm.trans hc
    exact (r.verdict_ne_command why hv).elim

theorem Reply.not_hasStatus_of_checked {argv : List Text} {r : Reply} {f : Failure}
    (h : r.checked argv = .error f) (hf : ∀ why, f ≠ .command why) : ¬r.HasStatus := by
  rcases r.checked_cases argv with ⟨-, hc⟩ | ⟨why, -, -, -, hc⟩ | ⟨f', hv, -⟩
  · cases h.symm.trans hc
  · cases h.symm.trans hc
    exact (hf why rfl).elim
  · exact Reply.not_hasStatus hv

/-! ## Commands that are started in the end -/

/-- The command is started exactly if every command before its first start ended with a status. -/
def ReachesStart (st : Start) (cs : List (Start × Reply)) : Prop :=
  (∃ r, (st, r) ∈ cs) ↔ ∀ c ∈ cs.takeWhile (·.1 ≠ st), c.2.HasStatus

theorem reachesStart_self (st : Start) (r : Reply) (cs : List (Start × Reply)) :
    ReachesStart st ((st, r) :: cs) := by
  refine iff_of_true ⟨r, List.mem_cons_self⟩ ?_
  simp

theorem ReachesStart.append {st : Start} {xs ys : List (Start × Reply)}
    (hne : ∀ c ∈ xs, c.1 ≠ st) (hs : ∀ c ∈ xs, c.2.HasStatus) (h : ReachesStart st ys) :
    ReachesStart st (xs ++ ys) := by
  have htake : (xs ++ ys).takeWhile (·.1 ≠ st) = xs ++ ys.takeWhile (·.1 ≠ st) :=
    List.takeWhile_append_of_pos fun c hc => by simpa using hne c hc
  have hmem : (∃ r, (st, r) ∈ xs ++ ys) ↔ ∃ r, (st, r) ∈ ys := by
    refine exists_congr fun r => ?_
    rw [List.mem_append, or_iff_right]
    exact fun hr => hne _ hr rfl
  rw [ReachesStart, hmem, htake]
  refine h.trans ⟨fun hy c hc => ?_, fun hc c hy => hc c (List.mem_append_right _ hy)⟩
  rcases List.mem_append.1 hc with hx | hy'
  · exact hs c hx
  · exact hy c hy'

/-- A command that has no status ends the run before the start. -/
theorem reachesStart_of_broken {st : Start} {xs : List (Start × Reply)} (hne : ∀ c ∈ xs, c.1 ≠ st)
    (hb : ∃ c ∈ xs, ¬c.2.HasStatus) : ReachesStart st xs := by
  have htake : xs.takeWhile (·.1 ≠ st) = xs := by
    have h : (xs ++ []).takeWhile (·.1 ≠ st) = xs ++ [].takeWhile (·.1 ≠ st) :=
      List.takeWhile_append_of_pos fun c hc => by simpa using hne c hc
    simpa using h
  obtain ⟨c, hc, hn⟩ := hb
  refine iff_of_false ?_ fun h => hn (h c (htake.symm ▸ hc))
  rintro ⟨r, hr⟩
  exact hne _ hr rfl

namespace Job

variable {touch : Host → Host → Prop} {j : Job} {h h' : Host} {acts : List Event}
  {names : List Text}

/-! ## The commands of each part -/

/-- Are all commands in the trace commands of the job's tools, with one of the names? -/
def Uses (j : Job) (names : List Text) (acts : List Event) : Prop :=
  ∀ x ∈ callsOf acts, ∃ c : Call, c.name ∈ names ∧ x.1 = j.tools.start c

theorem Uses.ne {c : Call} (hu : j.Uses names acts) (hc : c.name ∉ names) :
    ∀ x ∈ callsOf acts, x.1 ≠ j.tools.start c := by
  intro x hx hxc
  obtain ⟨c', hc', he⟩ := hu x hx
  exact hc (Tools.name_of_start_eq (he.symm.trans hxc) ▸ hc')

theorem uses_nil : j.Uses names [] := by
  intro x hx
  cases hx

theorem Uses.event {c : Call} {r : Reply} (hc : c.name ∈ names) (hu : j.Uses names acts) :
    j.Uses names (j.event c r :: acts) := by
  rintro x (_ | ⟨_, hx⟩)
  · exact ⟨c, hc, rfl⟩
  · exact hu x hx

theorem Uses.other {e : Event} (he : e.call? = none) (hu : j.Uses names acts) :
    j.Uses names (e :: acts) := by
  intro x hx
  exact hu x (by simpa [callsOf, he] using hx)

theorem Uses.append {xs ys : List Event} (hx : j.Uses names xs) (hy : j.Uses names ys) :
    j.Uses names (xs ++ ys) := by
  intro x hm
  rw [callsOf_append] at hm
  rcases List.mem_append.1 hm with h | h
  · exact hx x h
  · exact hy x h

theorem Uses.mono {more : List Text} (hu : j.Uses names acts) (hsub : names ⊆ more) :
    j.Uses more acts := by
  intro x hx
  obtain ⟨c, hc, he⟩ := hu x hx
  exact ⟨c, hsub hc, he⟩

/-- The commands of a removal of the scratch directory. -/
def removalNames : List Text := ["mountpoint"]

/-- The commands of a release. -/
def releaseNames : List Text := ["umount", "sync", "mountpoint"]

/-- The commands of a copy into the mounted image. -/
def copyingNames : List Text := ["mkdir", "cp", "sync"]

/-- The commands of the ways into the image. -/
def routeNames : List Text := ["umount", "sync", "mountpoint", "mkdir", "cp", "mmd", "mcopy"]

theorem Removal.uses {res : Except Failure Bool} (hr : j.Removal touch h acts res h') :
    j.Uses removalNames acts := by
  have hmountpoint : (Call.mountpoint j.mountDir).name ∈ removalNames := by
    simp [removalNames, Call.name, Call.words]
  cases hr with
  | unseen _ => exact uses_nil
  | absent _ => exact uses_nil.other rfl
  | removed _ _ _ _ _ => exact ((uses_nil.other rfl).event hmountpoint).other rfl
  | _ => exact (uses_nil.event hmountpoint).other rfl

theorem Release.uses {strict : Bool} {res : Except Failure Unit}
    (hr : j.Release touch strict h acts res h') : j.Uses releaseNames acts := by
  have humount : (Call.umount j.mountDir).name ∈ releaseNames := by
    simp [releaseNames, Call.name, Call.words]
  have hsync : Call.sync.name ∈ releaseNames := by simp [releaseNames, Call.name, Call.words]
  have hsub : removalNames ⊆ releaseNames := by simp [removalNames, releaseNames]
  cases hr with
  | broken _ _ | kept _ _ _ => exact uses_nil.event humount
  | unsynced _ _ _ _ => exact (uses_nil.event hsync).event humount
  | freed _ _ _ _ hrem => exact ((hrem.uses.mono hsub).event hsync).event humount

theorem Copying.uses {res : Except Failure Unit} (hc : j.Copying touch h acts res h') :
    j.Uses copyingNames acts := by
  have hmkdir : (Call.mkdir j.mountedDestDir).name ∈ copyingNames := by
    simp [copyingNames, Call.name, Call.words]
  have hcp : (Call.cp j.source j.mountedDestDir).name ∈ copyingNames := by
    simp [copyingNames, Call.name, Call.words]
  have hsync : Call.sync.name ∈ copyingNames := by simp [copyingNames, Call.name, Call.words]
  cases hc with
  | unmade _ _ => exact uses_nil.event hmkdir
  | uncopied _ _ _ _ => exact (uses_nil.event hcp).event hmkdir
  | copied _ _ _ _ _ => exact ((uses_nil.event hsync).event hcp).event hmkdir

theorem MountedCourse.uses {res : Except Failure Placement}
    (hm : j.MountedCourse touch h acts res h') : j.Uses routeNames acts := by
  have hcopying : copyingNames ⊆ routeNames := by simp [copyingNames, routeNames]
  have hrelease : releaseNames ⊆ routeNames := by simp [releaseNames, routeNames]
  cases hm with
  | uncopied hc hr | unreleased hc hr =>
    exact (hc.uses.mono hcopying).append (hr.uses.mono hrelease)
  | broken hc _ => exact hc.uses.mono hcopying
  | done hc hr =>
    exact (hc.uses.mono hcopying).append ((hr.uses.mono hrelease).append (uses_nil.other rfl))

theorem Making.uses {dirs : List Text} {res : Except Failure Unit}
    (hm : j.Making touch dirs h acts res h') : j.Uses routeNames acts := by
  have hmmd : ∀ dir, (Call.mmd j.image dir).name ∈ routeNames := by
    simp [routeNames, Call.name, Call.words]
  induction hm with
  | done => exact uses_nil
  | broken _ _ => exact uses_nil.event (hmmd _)
  | next _ _ _ ih => exact ih.event (hmmd _)

theorem OfflineCourse.uses {res : Except Failure Placement}
    (ho : j.OfflineCourse touch h acts res h') : j.Uses routeNames acts := by
  have humount : (Call.umount j.mountDir).name ∈ routeNames := by
    simp [routeNames, Call.name, Call.words]
  have hmcopy : (Call.mcopy j.image j.source j.destDir).name ∈ routeNames := by
    simp [routeNames, Call.name, Call.words]
  have hremoval : removalNames ⊆ routeNames := by simp [removalNames, routeNames]
  cases ho with
  | broken _ _ => exact (uses_nil.event humount).other rfl
  | unremoved _ _ hr | mounted _ _ hr => exact ((hr.uses.mono hremoval).event humount).other rfl
  | unmade _ _ hr hm => exact (((hr.uses.mono hremoval).append hm.uses).event humount).other rfl
  | uncopied _ _ hr hm _ _ =>
    exact (((hr.uses.mono hremoval).append
      (hm.uses.append (uses_nil.event hmcopy))).event humount).other rfl
  | done _ _ hr hm _ _ =>
    exact (((hr.uses.mono hremoval).append
      (hm.uses.append ((uses_nil.other rfl).event hmcopy))).event humount).other rfl

theorem RouteCourse.uses {route : Route} {res : Except Failure Placement}
    (hr : j.RouteCourse touch route h acts res h') : j.Uses routeNames acts := by
  cases route with
  | mounted => exact MountedCourse.uses hr
  | offline => exact OfflineCourse.uses hr

theorem umount_not_mem : (Call.umount j.mountDir).name ∉ copyingNames := by
  change ("umount" : Text) ∉ copyingNames
  decide

theorem mount_not_mem : (Call.mount j.image j.mountDir).name ∉ routeNames := by
  change ("mount" : Text) ∉ routeNames
  decide

/-! ## From the mount on -/

/-- A copy that succeeds, or fails as a command, is one whose commands all ended with a status. -/
theorem Copying.hasStatus {res : Except Failure Unit} (hc : j.Copying touch h acts res h')
    (hres : ∀ f, res = .error f → ∃ why, f = .command why) :
    ∀ c ∈ callsOf acts, c.2.HasStatus := by
  cases hc with
  | unmade _ hr =>
    obtain ⟨why, rfl⟩ := hres _ rfl
    rintro c (_ | ⟨_, hc⟩)
    · exact Reply.hasStatus_of_checked hr
    · cases hc
  | uncopied _ hv _ hr =>
    obtain ⟨why, rfl⟩ := hres _ rfl
    rintro c (_ | ⟨_, _ | ⟨_, hc⟩⟩)
    · exact ⟨0, hv⟩
    · exact Reply.hasStatus_of_checked hr
    · cases hc
  | @copied _ _ r _ _ _ _ hv _ hv' _ =>
    rintro c (_ | ⟨_, _ | ⟨_, _ | ⟨_, hc⟩⟩⟩)
    · exact ⟨0, hv⟩
    · exact ⟨0, hv'⟩
    · cases hr : r.verdict with
      | ok n => exact ⟨n, hr⟩
      | error f =>
        obtain ⟨why, rfl⟩ := hres f (Reply.ended_eq_error.2 hr)
        exact (r.verdict_ne_command why hr).elim
    · cases hc

theorem Copying.broken {f : Failure} (hc : j.Copying touch h acts (.error f) h')
    (hf : ∀ why, f ≠ .command why) : ∃ c ∈ callsOf acts, ¬c.2.HasStatus := by
  generalize hres : (Except.error f : Except Failure Unit) = res at hc
  cases hc with
  | unmade _ hr =>
    cases hres
    exact ⟨_, .head _, Reply.not_hasStatus_of_checked hr hf⟩
  | uncopied _ _ _ hr =>
    cases hres
    exact ⟨_, .tail _ (.head _), Reply.not_hasStatus_of_checked hr hf⟩
  | copied _ _ _ _ _ =>
    exact ⟨_, .tail _ (.tail _ (.head _)), Reply.not_hasStatus (Reply.ended_eq_error.1 hres.symm)⟩

/-- A release begins with an unmount. -/
theorem Release.reachesUmount {strict : Bool} {res : Except Failure Unit}
    (hr : j.Release touch strict h acts res h') :
    ReachesStart (j.tools.start (.umount j.mountDir)) (callsOf acts) := by
  cases hr <;> exact reachesStart_self ..

/-- So does the offline way. -/
theorem OfflineCourse.reachesUmount {res : Except Failure Placement}
    (ho : j.OfflineCourse touch h acts res h') :
    ReachesStart (j.tools.start (.umount j.mountDir)) (callsOf acts) := by
  cases ho <;> exact reachesStart_self ..

/-- The mounted way gets to its release unless a command of the copy has no status. -/
theorem MountedCourse.reachesUmount {res : Except Failure Placement}
    (hm : j.MountedCourse touch h acts res h') :
    ReachesStart (j.tools.start (.umount j.mountDir)) (callsOf acts) := by
  cases hm with
  | uncopied hc hr =>
    rw [callsOf_append]
    exact .append (hc.uses.ne umount_not_mem)
      (hc.hasStatus (by rintro f ⟨⟩; exact ⟨_, rfl⟩)) hr.reachesUmount
  | broken hc hf =>
    exact reachesStart_of_broken (hc.uses.ne umount_not_mem) (hc.broken hf)
  | unreleased hc hr =>
    rw [callsOf_append]
    exact .append (hc.uses.ne umount_not_mem) (hc.hasStatus (by rintro f ⟨⟩)) hr.reachesUmount
  | @done xs ys _ _ hc hr =>
    have hline : callsOf (xs ++ (ys ++ [.line "Successfully copied using mount"])) =
        callsOf xs ++ callsOf ys := by
      rw [callsOf_append, callsOf_append]
      exact congrArg _ (List.append_nil _)
    rw [hline]
    exact .append (hc.uses.ne umount_not_mem) (hc.hasStatus (by rintro f ⟨⟩)) hr.reachesUmount

theorem RouteCourse.reachesUmount {route : Route} {res : Except Failure Placement}
    (hr : j.RouteCourse touch route h acts res h') :
    ReachesStart (j.tools.start (.umount j.mountDir)) (callsOf acts) := by
  cases route with
  | mounted => exact MountedCourse.reachesUmount hr
  | offline => exact OfflineCourse.reachesUmount hr

/-- A selection starts a mount, if anything, and after one that succeeds it asks whether the mount
is active. It has a result exactly if that command has a status. -/
theorem Selection.calls {res : Except Failure Route} (hs : j.Selection touch h acts res h') :
    callsOf acts = [] ∨ ∃ r,
      (callsOf acts = [(j.tools.start (.mount j.image j.mountDir), r)] ∧ r.verdict ≠ .ok 0) ∨
      ∃ r', callsOf acts = [(j.tools.start (.mount j.image j.mountDir), r),
        (j.tools.start (.mountpoint j.mountDir), r')] ∧
          (r'.HasStatus ↔ ∃ route, res = .ok route) := by
  cases hs with
  | unspeakable _ _ | refused _ _ => exact .inl rfl
  | @broken r _ _ _ _ hv => exact .inr ⟨r, .inl ⟨rfl, by simp [hv]⟩⟩
  | @unmounted r _ _ _ _ hv hn => exact .inr ⟨r, .inl ⟨rfl, by simp [hv, hn]⟩⟩
  | unchecked _ _ _ _ hv =>
    exact .inr ⟨_, .inr ⟨_, rfl, iff_of_false (Reply.not_hasStatus hv) (by simp)⟩⟩
  | inactive _ _ _ _ hv _ | active _ _ _ _ hv =>
    exact .inr ⟨_, .inr ⟨_, rfl, iff_of_true ⟨_, hv⟩ ⟨_, rfl⟩⟩⟩

end Job

section

variable {touch : Host → Host → Prop} {source : Path} {settings : Settings} {tools : Option Tools}
  {h h' : Host} {acts : List Event}

/-- A course mounts the image once, before all other commands, or not at all. After a mount that
succeeds the image is unmounted unless a command before that has no status. -/
theorem Course.mounts {image : Path} {j : Job} {res : Except Failure Placement}
    (hi : settings.imagePath = .ok image) (hj : settings.job source image tools = .ok j)
    (hc : Course touch source settings tools h acts res h') :
    (∀ c ∈ callsOf acts, c.1 ≠ j.tools.start (.mount j.image j.mountDir)) ∨
      ∃ r cs, callsOf acts = (j.tools.start (.mount j.image j.mountDir), r) :: cs ∧
        (∀ c ∈ cs, c.1 ≠ j.tools.start (.mount j.image j.mountDir)) ∧
        (r.verdict = .ok 0 → ReachesStart (j.tools.start (.umount j.mountDir)) cs) := by
  have hmountpoint : j.tools.start (.mountpoint j.mountDir) ≠
      j.tools.start (.mount j.image j.mountDir) := fun he =>
    absurd (Tools.name_of_start_eq he) (by change ("mountpoint" : Text) ≠ "mount"; decide)
  have hmountpoint' : j.tools.start (.mountpoint j.mountDir) ≠
      j.tools.start (.umount j.mountDir) := fun he =>
    absurd (Tools.name_of_start_eq he) (by change ("mountpoint" : Text) ≠ "umount"; decide)
  cases hc with
  | @unselected _ j' xs f _ hi' _ _ hj' hs =>
    cases hi.symm.trans hi'
    cases hj.symm.trans hj'
    change (∀ c ∈ callsOf xs, _) ∨ ∃ r cs, callsOf xs = _ ∧ _
    rcases hs.calls with hx | ⟨r, ⟨hx, hv⟩ | ⟨r', hx, hs'⟩⟩ <;> rw [hx]
    · exact .inl (by simp)
    · exact .inr ⟨r, [], rfl, by simp, fun h => (hv h).elim⟩
    · refine .inr ⟨r, [_], rfl, by simpa using hmountpoint, fun _ => ?_⟩
      exact reachesStart_of_broken (by simpa using hmountpoint')
        ⟨_, List.mem_singleton.2 rfl, by simp [hs']⟩
  | @selected _ j' route xs ys _ _ _ hi' _ _ hj' hs hr =>
    cases hi.symm.trans hi'
    cases hj.symm.trans hj'
    have hys : ∀ c ∈ callsOf ys, c.1 ≠ j.tools.start (.mount j.image j.mountDir) :=
      hr.uses.ne Job.mount_not_mem
    have hacts : callsOf (greeting source image :: (xs ++ ys)) = callsOf xs ++ callsOf ys :=
      callsOf_append xs ys
    rw [hacts]
    rcases hs.calls with hx | ⟨r, ⟨hx, hv⟩ | ⟨r', hx, hs'⟩⟩ <;> rw [hx]
    · exact .inl hys
    · exact .inr ⟨r, callsOf ys, rfl, hys, fun h => (hv h).elim⟩
    · refine .inr ⟨r, _, rfl, ?_, fun _ => ?_⟩
      · rintro c (_ | ⟨_, hc⟩)
        · exact hmountpoint
        · exact hys c hc
      · change ReachesStart _ ([(j.tools.start (.mountpoint j.mountDir), r')] ++ callsOf ys)
        exact .append (by simpa using hmountpoint') (by simpa using hs'.2 ⟨_, rfl⟩)
          hr.reachesUmount
  | _ => exact .inl (by intro c hc; cases hc)

/-- After a mount that succeeded, an update that is not dry starts `umount` exactly if every
command that it starts in between ends with a status, whatever the status is. A command that does
not exist has one; a command that cannot be started for another reason, that writes what is no
text, or that the user interrupts has none. -/
theorem update_reachesUmount {programs : Programs} {w : World} {image : Path} {j : Job}
    {before rest : List (Start × Reply)} {out err : String} (hdry : settings.dryRun = false)
    (htools : ∀ t, tools = some t → t.dryRun = false) (hi : settings.imagePath = .ok image)
    (hj : settings.job source image tools = .ok j)
    (hcalls : callsOf (update source settings tools programs w).2.trace = callsOf w.trace ++
      (before ++ (j.tools.start (.mount j.image j.mountDir), .exited 0 out err) :: rest)) :
    ReachesStart (j.tools.start (.umount j.mountDir)) rest := by
  let s : Scene := ⟨programs, w.journal.openLogs, fun _ _ => True, fun _ _ _ => trivial⟩
  have hlive : ∀ image j, settings.job source image tools = .ok j → j.IsLive :=
    fun _ _ hj => Settings.isLive_of_job hdry htools hj
  obtain ⟨added, ht, -, -, hc⟩ :=
    obeys_update (s := s) (h := w.host.blank w.journal.openLogs) hlive w rfl rfl
  have ht : (update source settings tools programs w).2.trace = w.trace ++ added := ht
  rw [ht, callsOf_append] at hcalls
  have hadded := (callsOf_actsOf added).trans (List.append_cancel_left hcalls)
  rcases hc.mounts hi hj with hno | ⟨r, cs, hcs, hne, hreach⟩
  · have hmem : (j.tools.start (.mount j.image j.mountDir), .exited 0 out err) ∈
        callsOf (actsOf added) := by
      rw [hadded]
      exact List.mem_append_right _ (.head _)
    exact (hno _ hmem rfl).elim
  · -- the mount that succeeded is the one mount of the course
    rw [hcs] at hadded
    rcases before with _ | ⟨x, before⟩
    · cases hadded
      exact hreach rfl
    · cases hadded
      exact (hne _ (List.mem_append_right _ (.head _)) rfl).elim

end

/-- The image is given back after a copy that fails with a status. -/
theorem update_reachesUmount_copyFails :
    let programs := Script.programs [("cp", [⟨[], .exits 1 "" ""⟩])] 0
    let w := World.untouched .workbench
    let j : Job := ⟨Path.ofString "app.bin", Path.ofString "disk.img", Path.ofString "mnt", "/sbin",
      ⟨true, false⟩, false⟩
    let calls := callsOf (update (Path.ofString "app.bin") .empty none programs w).2.trace
    Settings.empty.dryRun = false ∧ Settings.empty.imagePath = .ok j.image ∧
      Settings.empty.job j.source j.image none = .ok j ∧
      calls = (j.tools.start (.mount j.image j.mountDir), .exited 0 "" "") :: calls.tail ∧
      ReachesStart (j.tools.start (.umount j.mountDir)) calls.tail := by
  intro programs w j calls
  have hi : Settings.empty.imagePath = .ok j.image := eq_ok_of_toOption (by decide +kernel)
  have hj : Settings.empty.job j.source j.image none = .ok j :=
    eq_ok_of_toOption (by decide +kernel)
  have hcalls :
      calls = (j.tools.start (.mount j.image j.mountDir), .exited 0 "" "") :: calls.tail := by
    decide +kernel
  have hcalls' : calls = callsOf w.trace ++
      ([] ++ (j.tools.start (.mount j.image j.mountDir), .exited 0 "" "") :: calls.tail) := hcalls
  exact ⟨rfl, hi, hj, hcalls, update_reachesUmount rfl (by simp) hi hj hcalls'⟩

/-- The image is kept mounted after a copy that may not be started, and after an interrupt. -/
theorem update_keepsImage_of_broken :
    let w := World.untouched .workbench
    let mount : Call := .mount (Path.ofString "disk.img") (Path.ofString "mnt")
    let umount : Call := .umount (Path.ofString "mnt")
    let tools : Tools := ⟨true, false⟩
    let calls (script : Script) := callsOf
      (update (Path.ofString "app.bin") .empty none (script.programs 0) w).2.trace
    (tools.start mount, .exited 0 "" "") ∈ calls [("cp", [⟨[], .denied⟩])] ∧
      (∀ c ∈ calls [("cp", [⟨[], .denied⟩])], c.1 ≠ tools.start umount) ∧
    (tools.start mount, .exited 0 "" "") ∈ calls [("mountpoint", [⟨[], .interrupt⟩])] ∧
      ∀ c ∈ calls [("mountpoint", [⟨[], .interrupt⟩])], c.1 ≠ tools.start umount := by
  decide +kernel

end FatInstall
