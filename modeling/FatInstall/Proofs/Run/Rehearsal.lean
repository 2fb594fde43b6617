import FatInstall.Proofs.Run.Admission

/-!
# Runs that only write lines

A dry run takes every command for a success and writes down what it would do. What it does is the
same in every world, whatever the programs of the host are: it has one result and one list of
records, of which the journal keeps those that it accepts.

* `Run.Writes r res records`: every run of `r` has the result `res`, writes the records and starts
  nothing. It is closed under sequencing.
* `Job.mountedCalls`: the commands of a job that is done through a mount, in order.
* `Job.writes_carryOut`: a dry job is done through a mount, and writes these commands.
-/

namespace FatInstall

theorem recordsOf_append (t u : List Event) : recordsOf (t ++ u) = recordsOf t ++ recordsOf u :=
  List.filterMap_append ..

namespace Run

variable {α β : Type}

/-- Does the run, in every world, have the result, write the records and do nothing else but print?
The host is taken without what was written to logs. -/
def Writes (r : Run α) (res : Except Failure α) (records : List Journal.Record) : Prop :=
  ∀ programs w, (r programs w).1 = res ∧ (r programs w).2.journal = w.journal ∧
    (r programs w).2.host.blank w.journal.openLogs = w.host.blank w.journal.openLogs ∧
      ∃ added, (r programs w).2.trace = w.trace ++ added ∧ startsOf added = [] ∧
        recordsOf added = records.filter fun x => w.journal.accepts x.level

theorem writes_pure {a : α} : (pure a : Run α).Writes (.ok a) [] :=
  fun _ _ => ⟨rfl, rfl, rfl, [], (List.append_nil _).symm, rfl, rfl⟩

theorem Writes.bind {r : Run α} {k : α → Run β} {a : α} {res : Except Failure β}
    {xs ys : List Journal.Record} (hr : r.Writes (.ok a) xs) (hk : (k a).Writes res ys) :
    (r >>= k).Writes res (xs ++ ys) := by
  intro programs w
  obtain ⟨hres, hj, hh, added, ht, hs, hx⟩ := hr programs w
  rcases hrun : r programs w with ⟨e, w'⟩
  rw [hrun] at hres hj hh ht
  dsimp only at hres hj hh ht
  subst hres
  obtain ⟨hres', hj', hh', more, ht', hs', hy⟩ := hk programs w'
  rw [hj] at hh' hy
  rw [bind_of_ok hrun]
  refine ⟨hres', hj'.trans hj, hh'.trans hh, added ++ more, ?_, ?_, ?_⟩
  · rw [ht', ht, List.append_assoc]
  · rw [startsOf_append, hs, hs', List.append_nil]
  · rw [recordsOf_append, hx, hy, List.filter_append]

theorem Writes.attempt {r : Run α} {res : Except Failure α} {xs : List Journal.Record}
    (hr : r.Writes res xs) : (Run.attempt r).Writes (.ok res) xs := by
  intro programs w
  obtain ⟨hres, h⟩ := hr programs w
  exact ⟨congrArg Except.ok hres, h⟩

theorem writes_print {line : Text} : (print line).Writes (.ok ()) [] :=
  fun _ _ => ⟨rfl, rfl, rfl, [_], rfl, rfl, rfl⟩

theorem recordsOf_complaints {added : List Event} (h : ∀ e ∈ added, ∃ t, e = .complained t) :
    recordsOf added = [] :=
  List.filterMap_eq_nil_iff.2 fun e he => by
    obtain ⟨t, rfl⟩ := h e he
    rfl

theorem writes_write {r : Journal.Record} : (write r).Writes (.ok ()) [r] := by
  intro programs w
  unfold write
  split
  · next hr =>
    have hlogs : ∀ n, .file (some n) ∈ w.journal.sinks → n ∈ w.journal.openLogs :=
      fun n hn => List.mem_filterMap.2 ⟨_, hn, rfl⟩
    obtain ⟨hj, hh, added, ht, ha⟩ :=
      foldl_sendTo r w.journal.sinks { w with trace := w.trace ++ [.logged r] } hlogs
    refine ⟨rfl, hj, hh, .logged r :: added, by simpa using ht, ?_, ?_⟩
    · rw [← startsOf_actsOf]
      exact congrArg startsOf (actsOf_complaints ha)
    · have hkept : [r].filter (fun x => w.journal.accepts x.level) = [r] := by simp [hr]
      rw [hkept]
      exact congrArg (r :: ·) (recordsOf_complaints ha)
  · next hr =>
    refine ⟨rfl, rfl, rfl, [], (List.append_nil _).symm, rfl, ?_⟩
    simp [hr, recordsOf]

/-- The record that a message to a channel becomes. -/
theorem writes_log {level : Journal.Level} {channel : Journal.Channel} {message : Text} :
    (log level channel message).Writes (.ok ()) [⟨level, channel.name, message, false⟩] :=
  writes_write

end Run

/-! ## Dry commands -/

/-- The record of a command that is about to run. -/
def Command.record (argv : List Text) : Journal.Record :=
  ⟨.info, Journal.Channel.command.name, "CMD " ++ Shell.render argv, false⟩

namespace Tools

open Run

/-- The record of a command of the tools. -/
def record (t : Tools) (c : Call) : Journal.Record := Command.record (t.argv c)

/-- Of records among which the commands are the given ones, a journal keeps all these or none:
commands have one level. -/
theorem filter_records {t : Tools} {journal : Journal} {records : List Journal.Record}
    {calls : List Call} (h : records.filter (fun x => x.channel = Journal.Channel.command.name) =
      calls.map t.record) :
    (records.filter fun x => journal.accepts x.level).filter
        (fun x => x.channel = Journal.Channel.command.name) =
      if journal.accepts .info then calls.map t.record else [] := by
  rw [List.filter_filter]
  simp only [Bool.and_comm]
  rw [← List.filter_filter, h, List.filter_map]
  split
  · next ha => exact congrArg _ (List.filter_eq_self.2 fun _ _ => ha)
  · next ha => exact List.map_eq_nil_iff.2 (List.filter_eq_nil_iff.2 fun _ _ => ha)

variable {α : Type} {t : Tools} (ht : t.dryRun = true)
include ht

/-- A dry command is written down and taken for a success, and the run goes on from that. -/
theorem writes_dry {c : Call} {check : Bool} {k : Command.Result → Run α} {res : Except Failure α}
    (hk : ∀ x : Command.Result, x.ok = true → (k x).Writes res []) :
    (t.run check (t.argv c) >>= k).Writes res [t.record c] := by
  have hrun : (t.run check (t.argv c)).Writes (.ok ⟨t.argv c, 0, "", ""⟩) [t.record c] := by
    unfold Tools.run Command.run
    simp only [ht, if_true]
    exact writes_log.bind writes_pure
  exact hrun.bind (hk _ rfl)

theorem writes_mount (image target : Path) :
    (t.mount image target).Writes (.ok true) [t.record (.mount image target)] :=
  writes_dry (c := .mount image target) ht fun x hx => by
    simp only [hx, Bool.not_true, Bool.false_eq_true, if_false]
    exact writes_pure

theorem writes_isMountpoint (dir : Path) :
    (t.isMountpoint dir).Writes (.ok true) [t.record (.mountpoint dir)] :=
  writes_dry (c := .mountpoint dir) ht fun _ hx => hx ▸ writes_pure

theorem writes_unmount (dir : Path) : (t.unmount dir).Writes (.ok true) [t.record (.umount dir)] :=
  writes_dry (c := .umount dir) ht fun _ hx => hx ▸ writes_pure

theorem writes_sync : t.sync.Writes (.ok ()) [t.record .sync] :=
  writes_dry (c := .sync) ht fun x hx => by
    simp only [hx, Bool.not_true, Bool.false_eq_true, if_false]
    exact writes_pure

theorem writes_makeDirectory (dir : Path) :
    (t.makeDirectory dir).Writes (.ok ()) [t.record (.mkdir dir)] :=
  writes_dry (c := .mkdir dir) ht fun _ _ => writes_pure

theorem writes_copyFile (source dir : Path) :
    (t.copyFile source dir).Writes (.ok ()) [t.record (.cp source dir)] :=
  writes_dry (c := .cp source dir) ht fun _ _ => writes_pure

end Tools

/-! ## Dry jobs -/

namespace Job

open Run

/-- Does the job only say what it would do? -/
structure IsDry (j : Job) : Prop where
  job : j.dryRun = true
  tools : j.tools.dryRun = true

/-- The commands of a job that is done through a mount and ends well, in order. -/
def mountedCalls (j : Job) : List Call :=
  [.mount j.image j.mountDir, .mountpoint j.mountDir, .mkdir j.mountedDestDir,
    .cp j.source j.mountedDestDir, .sync, .umount j.mountDir, .sync]

variable {j : Job} (hj : j.IsDry)
include hj

theorem writes_createScratchDir : ∃ x : Journal.Record,
    x.channel = Journal.Channel.scratch.name ∧ j.createScratchDir.Writes (.ok ()) [x] := by
  unfold createScratchDir
  rw [if_pos hj.job]
  exact ⟨_, rfl, writes_log⟩

theorem writes_removeScratchDir : ∃ x : Journal.Record,
    x.channel = Journal.Channel.scratch.name ∧ j.removeScratchDir.Writes (.ok true) [x] := by
  unfold removeScratchDir removeScratchDirBy
  rw [if_pos hj.job]
  exact ⟨_, rfl, writes_log.bind writes_pure⟩

/-- The scratch directory is said to be made, and the mount taken for a success. -/
theorem writes_selectRoute : ∃ x : Journal.Record, x.channel = Journal.Channel.scratch.name ∧
    j.selectRoute.Writes (.ok .mounted)
      [x, j.tools.record (.mount j.image j.mountDir), j.tools.record (.mountpoint j.mountDir)] := by
  obtain ⟨x, hx, hmade⟩ := writes_createScratchDir hj
  have hprobe : j.probeMount.Writes (.ok ()) [x, j.tools.record (.mount j.image j.mountDir),
      j.tools.record (.mountpoint j.mountDir)] := by
    unfold probeMount
    exact hmade.attempt.bind ((Tools.writes_mount hj.tools _ _).bind
      ((Tools.writes_isMountpoint hj.tools _).bind writes_pure))
  exact ⟨x, hx, hprobe.attempt.bind writes_pure⟩

theorem writes_copy : (Mounted.copy j).Writes (.ok ()) [j.tools.record (.mkdir j.mountedDestDir),
    j.tools.record (.cp j.source j.mountedDestDir), j.tools.record .sync] :=
  (Tools.writes_makeDirectory hj.tools _).bind ((Tools.writes_copyFile hj.tools _ _).bind
    (Tools.writes_sync hj.tools))

theorem writes_release : ∃ x : Journal.Record, x.channel = Journal.Channel.scratch.name ∧
    (Mounted.release j true).Writes (.ok ())
      [j.tools.record (.umount j.mountDir), j.tools.record .sync, x] := by
  obtain ⟨x, hx, hgone⟩ := writes_removeScratchDir hj
  exact ⟨x, hx, (Tools.writes_unmount hj.tools _).bind
    ((Tools.writes_sync hj.tools).bind (hgone.bind writes_pure))⟩

/-- A dry job is done through a mount, and the commands that it writes are those of such a job. -/
theorem writes_carryOut : ∃ records,
    j.carryOut.Writes (.ok (j.placement .mounted)) records ∧
      records.filter (fun x => x.channel = Journal.Channel.command.name) =
        j.mountedCalls.map j.tools.record := by
  obtain ⟨x, hx, hselect⟩ := writes_selectRoute hj
  obtain ⟨y, hy, hrelease⟩ := writes_release hj
  refine ⟨_, writes_print.bind (hselect.bind (writes_log.bind ((writes_copy hj).attempt.bind
    (hrelease.bind (writes_log.bind (writes_print.bind writes_pure)))))), ?_⟩
  simp [hx, hy, mountedCalls, Tools.record, Command.record, Journal.Channel.name]

end Job

/-- With tools of its own, a job is dry or live altogether. -/
theorem Settings.dry_or_live_of_job {settings : Settings} {source image : Path} {j : Job}
    (hj : settings.job source image none = .ok j) : j.IsDry ∨ j.IsLive := by
  obtain ⟨m, d, t, -, -, htools, rfl⟩ := Settings.job_eq_ok.1 hj
  have ht : t.dryRun = settings.dryRun := by
    simp only [Option.elim_none, Settings.tools] at htools
    cases hu : settings.useSudo <;> rw [hu] at htools <;> cases htools
    rfl
  cases hdry : settings.dryRun with
  | true => exact .inl ⟨rfl, ht.trans hdry⟩
  | false => exact .inr ⟨rfl, ht.trans hdry⟩

end FatInstall
