import FatInstall.Proofs.Run.Rehearsal
import FatInstall.Proofs.Run.Silence
import FatInstall.Proofs.Run.Starts
import FatInstall.Proofs.Shell.Words
import FatInstall.World.Script

/-!
# The journal as an audit trail

Every command is announced in the journal right before it is started. As long as the journal keeps
records of the level `info`, the announcements of a run that is not dry are its starts: in the same
order, none missing and none extra, and each can be read back as the words of the command.

* `AuditTrail`: announcements and starts belong together.
* `Run.Accounted`: all that a run adds is such a trail. It is closed under sequencing.
* `Job.accountedCongruence`: so the runs of a job that is not dry are accounted for.
* `runs_leave_auditTrail`: the property for updates and for the program as a whole.
-/

namespace FatInstall

/-! ## Trails -/

/-- The command that a record announces, if it announces one. -/
def Journal.Record.announcement? (r : Journal.Record) : Option Text :=
  if r.channel = Journal.Channel.command.name then
    (("CMD " : Text).points.isPrefixOf? r.message.points).map Text.mk
  else none

/-- The announcements in a trace. -/
def announcementsOf (trace : List Event) : List Text :=
  (recordsOf trace).filterMap Journal.Record.announcement?

/-- What an audit looks at. -/
inductive Mark
  /-- A command was announced in the journal. -/
  | announced (line : Text)
  /-- A command was started. -/
  | started (argv : List Text)
  deriving DecidableEq, Repr

/-- The line of a mark that announces. -/
def Mark.line? : Mark → Option Text
  | announced line => some line
  | started _ => none

/-- The mark of an event. -/
def Event.mark? : Event → Option Mark
  | .logged r => r.announcement?.map .announced
  | .started s _ => some (.started s.argv)
  | _ => none

/-- The marks in a trace. -/
def marksOf (trace : List Event) : List Mark := trace.filterMap Event.mark?

/-- The marks of a start: it is announced, and then made. -/
def Start.marks (s : Start) : List Mark := [.announced (Shell.render s.argv), .started s.argv]

/-- Is the journal a complete account of the commands of the trace? -/
structure AuditTrail (trace : List Event) : Prop where
  /-- Every start comes right after its announcement, and there is no other announcement. -/
  marks : marksOf trace = (startsOf trace).flatMap Start.marks
  /-- The announcements are the rendered commands. -/
  announcements : announcementsOf trace = (startsOf trace).map fun s => Shell.render s.argv
  /-- Read as a shell reads them, the announcements are the commands. -/
  words : (announcementsOf trace).map Shell.split? = (startsOf trace).map fun s => some s.argv

theorem marksOf_append (t u : List Event) : marksOf (t ++ u) = marksOf t ++ marksOf u :=
  List.filterMap_append ..

theorem announcementsOf_eq_marksOf (trace : List Event) :
    announcementsOf trace = (marksOf trace).filterMap Mark.line? := by
  simp only [announcementsOf, recordsOf, marksOf, List.filterMap_filterMap]
  congr 1
  funext e
  cases e with
  | logged r =>
    simp only [Event.record?, Event.mark?, Option.bind_some]
    cases r.announcement? <;> rfl
  | _ => rfl

theorem filterMap_line?_marks (starts : List Start) :
    (starts.flatMap Start.marks).filterMap Mark.line? =
      starts.map fun s => Shell.render s.argv := by
  induction starts with
  | nil => rfl
  | cons s starts ih =>
    rw [List.flatMap_cons, List.filterMap_append, ih]
    rfl

/-- The order of the marks is all that there is to show. -/
theorem auditTrail_of_marks {trace : List Event}
    (h : marksOf trace = (startsOf trace).flatMap Start.marks) : AuditTrail trace := by
  have hlines : announcementsOf trace = (startsOf trace).map fun s => Shell.render s.argv := by
    rw [announcementsOf_eq_marksOf, h, filterMap_line?_marks]
  refine ⟨h, hlines, ?_⟩
  rw [hlines, List.map_map]
  exact List.map_congr_left fun s _ => Shell.split?_render s.argv

theorem AuditTrail.append {t u : List Event} (ht : AuditTrail t) (hu : AuditTrail u) :
    AuditTrail (t ++ u) :=
  auditTrail_of_marks <| by
    rw [marksOf_append, startsOf_append, List.flatMap_append, ht.marks, hu.marks]

theorem startsOf_of_marksOf {trace : List Event} (h : marksOf trace = []) :
    startsOf trace = [] := by
  rw [marksOf, List.filterMap_eq_nil_iff] at h
  refine List.filterMap_eq_nil_iff.2 fun e he => ?_
  cases e with
  | started s r => cases h _ he
  | _ => rfl

theorem auditTrail_of_unmarked {trace : List Event} (h : marksOf trace = []) :
    AuditTrail trace :=
  auditTrail_of_marks (by rw [h, startsOf_of_marksOf h, List.flatMap_nil])

theorem marksOf_complaints {added : List Event} (h : ∀ e ∈ added, ∃ t, e = .complained t) :
    marksOf added = [] :=
  List.filterMap_eq_nil_iff.2 fun e he => by
    obtain ⟨t, rfl⟩ := h e he
    rfl

/-! ## Records -/

/-- Only the channel of the commands has announcements. -/
theorem Journal.announcement?_of_channel {level : Journal.Level} {channel : Journal.Channel}
    {message : Text} {hasAccount : Bool} (h : channel ≠ .command) :
    Journal.Record.announcement? ⟨level, channel.name, message, hasAccount⟩ = none := by
  have hname : channel.name ≠ Journal.Channel.command.name := by
    cases channel with
    | command => exact (h rfl).elim
    | _ => decide
  exact if_neg hname

/-- What a record that is kept adds to the marks. -/
theorem World.marks_write {r : Journal.Record} {w : World} (programs : Programs)
    (h : w.journal.accepts r.level = true) :
    (Run.write r programs w).2.journal = w.journal ∧
      ∃ added, (Run.write r programs w).2.trace = w.trace ++ added ∧
        marksOf added = (r.announcement?.map Mark.announced).toList ∧ startsOf added = [] := by
  have hlogs : ∀ n, .file (some n) ∈ w.journal.sinks → n ∈ w.journal.openLogs :=
    fun n hn => List.mem_filterMap.2 ⟨_, hn, rfl⟩
  obtain ⟨hj, -, added, ht, ha⟩ :=
    Run.foldl_sendTo r w.journal.sinks { w with trace := w.trace ++ [.logged r] } hlogs
  unfold Run.write
  rw [if_pos h]
  refine ⟨hj, .logged r :: added, by simpa using ht, ?_, ?_⟩
  · rw [← List.singleton_append, marksOf_append, marksOf_complaints ha, List.append_nil]
    cases hr : r.announcement? <;> simp [marksOf, Event.mark?, hr]
  · rw [← startsOf_actsOf]
    exact congrArg startsOf (Run.actsOf_complaints ha)

/-! ## Runs that are accounted for -/

namespace Run

variable {α β : Type}

/-- Is all that the run adds an audit trail when it begins in the world? The journal must still
keep announcements at its end. -/
def LeavesTrail (r : Run α) (programs : Programs) (w : World) : Prop :=
  (r programs w).2.journal.threshold ≤ .info ∧
    ∃ added, (r programs w).2.trace = w.trace ++ added ∧ AuditTrail added

/-- A run that leaves a trail, and one after it that leaves a trail in the world it then finds. -/
theorem LeavesTrail.bind {r : Run α} {k : α → Run β} {programs : Programs} {w : World}
    (hr : r.LeavesTrail programs w)
    (hk : ∀ a w', r programs w = (.ok a, w') → w'.journal.threshold ≤ .info →
      (k a).LeavesTrail programs w') : (r >>= k).LeavesTrail programs w := by
  obtain ⟨hj, added, ht, ha⟩ := hr
  unfold LeavesTrail
  rcases hrw : r programs w with ⟨f | a, w'⟩ <;> rw [hrw] at hj ht
  · rw [bind_of_error hrw]
    exact ⟨hj, added, ht, ha⟩
  · obtain ⟨hj', more, ht', ha'⟩ := hk a w' hrw hj
    rw [bind_of_ok hrw]
    exact ⟨hj', added ++ more, by rw [ht', ht, List.append_assoc], ha.append ha'⟩

/-- Does the run leave an audit trail in every world whose journal keeps announcements? -/
def Accounted (r : Run α) : Prop :=
  ∀ programs w, w.journal.threshold ≤ .info → r.LeavesTrail programs w

theorem Accounted.bind {r : Run α} {k : α → Run β} (hr : r.Accounted)
    (hk : ∀ a, (k a).Accounted) : (r >>= k).Accounted :=
  fun programs w hw => (hr programs w hw).bind fun a w' _ hw' => hk a programs w' hw'

theorem Accounted.attempt {r : Run α} (hr : r.Accounted) : (Run.attempt r).Accounted := hr

/-- A step that adds nothing. -/
theorem accounted_of_trace {r : Run α}
    (hj : ∀ programs w, (r programs w).2.journal.threshold = w.journal.threshold)
    (ht : ∀ programs w, (r programs w).2.trace = w.trace) : r.Accounted :=
  fun programs w hw => ⟨le_of_eq_of_le (hj programs w) hw, [], by rw [ht, List.append_nil],
    auditTrail_of_unmarked rfl⟩

theorem accounted_pure {a : α} : (pure a : Run α).Accounted :=
  accounted_of_trace (fun _ _ => rfl) fun _ _ => rfl

theorem accounted_fail {f : Failure} : (fail f : Run α).Accounted :=
  accounted_of_trace (fun _ _ => rfl) fun _ _ => rfl

theorem accounted_look {f : Host → Except Host.Refusal α} : (look f).Accounted :=
  accounted_of_trace (fun _ _ => rfl) fun _ _ => rfl

theorem accounted_change {f : Host → Except Host.Refusal α × Host} : (change f).Accounted :=
  accounted_of_trace (fun _ _ => rfl) fun _ _ => rfl

theorem accounted_note {e : Event} (he : e.mark? = none) : (note e).Accounted :=
  fun _ _ hw => ⟨hw, [e], rfl, auditTrail_of_unmarked (by simp [marksOf, he])⟩

/-- A record that announces nothing, kept or not. -/
theorem accounted_write {r : Journal.Record} (hr : r.announcement? = none) :
    (write r).Accounted := by
  intro programs w hw
  by_cases hkept : w.journal.accepts r.level = true
  · obtain ⟨hj, added, ht, hm, -⟩ := World.marks_write programs hkept
    rw [hr] at hm
    exact ⟨hj ▸ hw, added, ht, auditTrail_of_unmarked hm⟩
  · have hsame : write r programs w = (.ok (), w) := if_neg hkept
    unfold LeavesTrail
    rw [hsame]
    exact ⟨hw, [], (List.append_nil _).symm, auditTrail_of_unmarked rfl⟩

theorem accounted_log {level : Journal.Level} {channel : Journal.Channel} {message : Text}
    (h : channel ≠ .command) : (log level channel message).Accounted :=
  accounted_write (Journal.announcement?_of_channel h)

/-! ## Commands -/

theorem accounted_logOutput {label text : String} (h : label = "STDOUT" ∨ label = "STDERR") :
    (Command.logOutput label text).Accounted := by
  unfold Command.logOutput
  split
  · exact accounted_pure
  · obtain rfl | rfl := h <;> exact accounted_write rfl

/-- A command that is announced and then started, before a run that goes on from the reply. -/
theorem accounted_start {s : Start} {k : Reply → Run α} (hk : ∀ r, (k r).Accounted) :
    (write (Command.record s.argv) >>= fun _ => start s >>= k).Accounted := by
  rw [← bind_assoc]
  refine Accounted.bind (fun programs w hw => ?_) hk
  have hkept : w.journal.accepts (Command.record s.argv).level = true := by
    simp only [Journal.accepts, Bool.and_eq_true, decide_eq_true_eq]
    exact ⟨(by decide : (0 : Int) < 20), hw⟩
  obtain ⟨hj, added, ht, hm, hs⟩ := World.marks_write programs hkept
  have hwrite := write_eq (Command.record s.argv) programs w
  generalize (write (Command.record s.argv) programs w).2 = w₁ at hj ht hwrite
  unfold LeavesTrail
  rw [bind_of_ok hwrite]
  refine ⟨hj ▸ hw, added ++ [.started s (programs (startsOf w₁.trace) s w₁.host).1], ?_, ?_⟩
  · rw [← List.append_assoc, ← ht]
    rfl
  · refine auditTrail_of_marks ?_
    rw [marksOf_append, hm, startsOf_append, hs]
    rfl

/-- A command that is not dry is announced before it is started, and whatever comes of it is no
announcement. -/
theorem accounted_command {argv : List Text} {mode : Command.Mode} (hargv : argv ≠ [])
    (hdry : mode.dryRun = false) : (Command.run argv mode).Accounted := by
  obtain ⟨name, rest, rfl⟩ := List.exists_cons_of_ne_nil hargv
  unfold Command.run
  simp only [hdry, Bool.false_eq_true, if_false]
  refine accounted_start (s := ⟨name :: rest, mode.input, mode.cwd, mode.env⟩) fun r => ?_
  split
  · -- there is no such command
    split
    · exact accounted_fail
    · exact (accounted_write rfl).bind fun _ => accounted_pure
  · exact accounted_fail
  · exact accounted_fail
  · exact accounted_fail
  · refine (accounted_logOutput (.inl rfl)).bind fun _ => ?_
    refine (accounted_logOutput (.inr rfl)).bind fun _ => ?_
    split
    · exact accounted_fail
    · exact accounted_pure

end Run

/-! ## Jobs -/

namespace Job

open Run

/-- That a run is accounted for is respected by the ways to put runs of a job together. -/
def accountedCongruence (j : Job) (hj : j.tools.dryRun = false) : j.Congruence j.tools where
  Rel r _ := r.Accounted
  May _ := True
  may_own _ := trivial
  pure _ := accounted_pure
  fail _ _ := accounted_fail
  bind hr hk := hr.bind hk
  attempt hr hok hf := hr.attempt.bind fun
    | .ok a => hok a
    | .error f => hf f f (.same f) trivial
  print _ := accounted_note rfl
  seek := accounted_look.bind fun _ => (accounted_note rfl).bind fun _ => accounted_pure
  discard := by
    rw [discard_eq]
    refine accounted_look.bind fun d => (accounted_note rfl).bind fun _ => ?_
    cases d <;> exact accounted_change
  log hc := accounted_log hc
  tool _ hk := (accounted_command (Tools.argv_ne_nil _ _) hj).bind fun x => hk x x rfl

/-- A job that is not dry is accounted for. -/
theorem accounted_carryOut {j : Job} (hj : j.tools.dryRun = false) : j.carryOut.Accounted :=
  (j.accountedCongruence hj).carryOut ((accounted_note rfl).bind fun _ => accounted_change)
    fun _ => trivial

end Job

/-! ## Updates and programs -/

open Run

theorem accounted_update {source : Path} {settings : Settings} (hdry : settings.dryRun = false) :
    (update source settings none).Accounted := by
  intro programs w hw
  unfold LeavesTrail
  rw [update_eq_admission]
  cases hj : admission w.host source settings none with
  | error f => exact ⟨hw, [], (List.append_nil _).symm, auditTrail_of_unmarked rfl⟩
  | ok j =>
    obtain ⟨image, -, -, -, hset⟩ := admission_eq_ok.1 hj
    have hlive := Settings.isLive_of_job hdry (by simp) hset
    exact Job.accounted_carryOut hlive.tools programs w hw

namespace Journal

theorem accounted_setUp (sinks : List Sink) (path : Option Text) : (modifyJournal fun j =>
    { j with sinks := j.sinks ++ sinks, setUp := some path }).Accounted :=
  accounted_of_trace (fun _ _ => rfl) fun _ _ => rfl

theorem accounted_setUpBefore : setUpBefore.Accounted :=
  accounted_of_trace (fun _ _ => rfl) fun _ _ => rfl

theorem accounted_openLog (path : Text) : (openLog path).Accounted := by
  have hopen : (openFile path).Accounted := accounted_change.bind fun _ => accounted_change
  refine hopen.attempt.bind fun e => ?_
  split
  · exact accounted_pure
  · split
    · exact accounted_fail
    · exact accounted_look.bind fun _ => accounted_change.bind fun _ => accounted_pure
  · exact accounted_fail

/-- Setting up the journal announces nothing, and may begin with any threshold. -/
theorem configure_leavesTrail {threshold : Level} (requested : Given)
    (hlevel : threshold ≤ .info) (console : Bool) (programs : Programs) (w : World) :
    (configure requested threshold console).LeavesTrail programs w := by
  have htail (sinks : List Sink) (path : Option Text) (message : Text) : Accounted (do
      modifyJournal fun j => { j with sinks := j.sinks ++ sinks, setUp := some path }
      Run.log .info .journal message
      return path) :=
    (accounted_setUp sinks path).bind fun _ =>
      (accounted_log (nofun : Channel.journal ≠ .command)).bind fun _ => accounted_pure
  unfold configure setUpBy
  refine LeavesTrail.bind (r := modifyJournal _)
    ⟨hlevel, [], (List.append_nil _).symm, auditTrail_of_unmarked rfl⟩ fun _ w' _ hw' => ?_
  refine Accounted.bind accounted_setUpBefore (fun before => ?_) programs w' hw'
  split
  · exact accounted_pure
  · dsimp only
    split
    · exact (accounted_openLog _).bind fun _ => accounted_pure.bind fun _ => htail _ _ _
    · exact accounted_pure.bind fun _ => htail _ _ _

end Journal

namespace Program

open CommandLine (Options)

theorem announcement?_failed (channel : Journal.Channel) :
    Journal.Record.announcement? ⟨.debug, channel.name, "Update failed", true⟩ = none := by
  unfold Journal.Record.announcement?
  split <;> rfl

theorem thresholdOf_le_info {verbose : Nat} (h : 1 ≤ verbose) : thresholdOf verbose ≤ .info := by
  unfold thresholdOf
  split
  · decide
  · have hone : verbose = 1 := by omega
    exact Int.le_of_eq (if_pos hone)

theorem perform_leavesTrail {o : Options} {programs : Programs} {w : World}
    (hlevel : w.journal.threshold ≤ .info)
    (hdry : ∀ settings, namedSettings o w.host = .ok settings →
      (settings.withOverrides (changes o)).dryRun = false) :
    (perform o none).LeavesTrail programs w := by
  have hread : settingsOf o programs w = (namedSettings o w.host, w) := settingsOf_eq
  unfold perform
  split
  · refine LeavesTrail.bind (r := settingsOf o) ?_ fun settings w' hs hw' => ?_
    · unfold LeavesTrail
      rw [hread]
      exact ⟨hlevel, [], (List.append_nil _).symm, auditTrail_of_unmarked rfl⟩
    · have hsettings : namedSettings o w.host = .ok settings :=
        congrArg Prod.fst (hread.symm.trans hs)
      exact accounted_update (hdry settings hsettings) programs w' hw'
  · exact accounted_fail programs w hlevel

theorem run_leavesTrail {words : List String} {o : Options} {channel : Journal.Channel}
    {programs : Programs} {w : World} (hparse : CommandLine.parse words = .ok o)
    (hlevel : 1 ≤ o.verbose)
    (hdry : ∀ path w' settings,
      Journal.configure o.log (thresholdOf o.verbose) true programs w = (.ok path, w') →
        namedSettings o w'.host = .ok settings →
          (settings.withOverrides (changes o)).dryRun = false) :
    (run words none channel).LeavesTrail programs w := by
  have hread : readWords words = pure o := by
    unfold readWords
    rw [hparse]
  have hset := Journal.configure_leavesTrail o.log (thresholdOf_le_info hlevel)
    true programs w
  have hdone : ∀ path w', Journal.configure o.log (thresholdOf o.verbose) true programs w =
      (.ok path, w') → w'.journal.threshold ≤ .info →
        (Run.attempt (perform o none)).LeavesTrail programs w' :=
    fun path w' hconf hw' => perform_leavesTrail hw' fun settings => hdry path w' settings hconf
  unfold run
  rw [hread]
  change LeavesTrail (Journal.configure o.log (thresholdOf o.verbose) true >>= _) programs w
  refine hset.bind fun path w' hconf hw' => (hdone path w' hconf hw').bind fun e w'' _ hw'' => ?_
  refine (?_ : Accounted _) programs w'' hw''
  split
  · exact accounted_pure
  · exact (accounted_write (announcement?_failed channel)).bind fun _ =>
      (accounted_note rfl).bind fun _ => accounted_pure
  · exact accounted_pure
  · exact accounted_fail

end Program

/-- As long as the journal keeps records of the level `info`, every run that is not dry leaves a
complete account of its commands, whatever the host and its programs do: what it adds to the trace
announces every start, in the words of the command, right before the start, and announces nothing
else. For the program the threshold of the journal is the one that the command line asks for, and
the settings are those that the program reads once its journal is set up. -/
theorem runs_leave_auditTrail (programs : Programs) (w : World) :
    (∀ source settings, settings.dryRun = false → w.journal.threshold ≤ .info →
      ∃ added, (update source settings none programs w).2.trace = w.trace ++ added ∧
        AuditTrail added) ∧
    ∀ words channel,
      (∀ o, CommandLine.parse words = .ok o → 1 ≤ o.verbose ∧ ∀ path w' settings,
        Journal.configure o.log (Program.thresholdOf o.verbose) true programs w = (.ok path, w') →
          Program.namedSettings o w'.host = .ok settings →
            (settings.withOverrides (Program.changes o)).dryRun = false) →
      ∃ added, (Program.run words none channel programs w).2.trace = w.trace ++ added ∧
        AuditTrail added := by
  refine ⟨fun source settings hdry hlevel => (accounted_update hdry programs w hlevel).2,
    fun words channel h => ?_⟩
  rcases hparse : CommandLine.parse words with e | o
  · -- the program ends with a text of its command line
    unfold Program.run Program.readWords
    rw [hparse]
    cases e <;> exact ⟨[_], rfl, auditTrail_of_unmarked rfl⟩
  · obtain ⟨hlevel, hdry⟩ := h o hparse
    exact (Program.run_leavesTrail hparse hlevel hdry).2

/-- An update that falls back to editing an image with a blank in its name, and the program on the
same command line: the mount is announced and made first. -/
theorem runs_leave_auditTrail_blank :
    let host : Host := { Host.workbench with
      tree := { entries := [(["app.bin"], .file 0 [7]), (["my disk"], .file 1 [1, 2])], next := 2 } }
    let programs := Script.programs [("mountpoint", [⟨[], .exits 1 "" ""⟩])] 0
    let w : World := { World.untouched host with
      journal := { (World.untouched host).journal with threshold := .info } }
    let settings := Settings.ofEntries [(.text "image", .text "my disk")]
    let source := Path.ofString "app.bin"
    let words := ["app.bin", "--image", "my disk", "-v"]
    let o : CommandLine.Options := { files := ["app.bin"], image := .word "my disk", verbose := 1 }
    let done := update source settings none programs w
    let main := Program.run words none .program programs w
    let commands : List Text := ["sudo mount 'my disk' mnt", "mountpoint -q mnt",
      "sudo umount mnt", "mountpoint -q mnt", "mmd -i 'my disk' ::/sbin",
      "mcopy -i 'my disk' -o app.bin ::/sbin/"]
    settings.dryRun = false ∧ w.journal.threshold ≤ .info ∧ CommandLine.parse words = .ok o ∧
      1 ≤ o.verbose ∧ AuditTrail done.2.trace ∧ AuditTrail main.2.trace ∧
      announcementsOf done.2.trace = commands ∧ announcementsOf main.2.trace = commands := by
  intro host programs w settings source words o done main commands
  have hparse : CommandLine.parse words = .ok o := eq_ok_of_toOption (by decide +kernel)
  obtain ⟨hupdate, hrun⟩ := runs_leave_auditTrail programs w
  obtain ⟨added, ht, ha⟩ := hupdate source settings rfl (Int.le_refl _)
  obtain ⟨added', ht', ha'⟩ := hrun words .program fun o' ho => by
    cases hparse.symm.trans ho
    refine ⟨Nat.le_refl _, fun path w' settings' _ hs => ?_⟩
    cases hs
    decide +kernel
  have htrace : done.2.trace = added := ht
  have htrace' : main.2.trace = added' := ht'
  exact ⟨rfl, Int.le_refl _, hparse, Nat.le_refl _, htrace ▸ ha, htrace' ▸ ha', by decide +kernel,
    by decide +kernel⟩

end FatInstall
