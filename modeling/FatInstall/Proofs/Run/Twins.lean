import FatInstall.Proofs.Run.Congruence
import FatInstall.Proofs.Run.Silence

/-!
# Two runs that differ by `sudo`

A job is done twice, once with tools that put `sudo` before the commands that need privileges, and
once with tools that do not. If the programs of the host answer both in the same way, then the runs
go the same way, step by step.

* `World.Twins`: worlds that two such runs have led to from one world.
* `Programs.IgnoresPrivilege`: what the programs have to answer.
* `Run.Twins`: runs that keep worlds twins, with outcomes that are alike. It is closed under
  sequencing.
* `Job.twins_carryOut`: so the two runs of a job are twins.
-/

namespace FatInstall

/-! ## Outcomes and replies that are alike -/

/-- Are the outcomes results that are related, or failures of one class? -/
inductive Outcome.Alike {α β : Type} (R : α → β → Prop) : Except Failure α → Except Failure β → Prop
  | ok {a : α} {b : β} : R a b → Alike R (.ok a) (.ok b)
  | error {f f' : Failure} : f.Alike f' → Alike R (.error f) (.error f')

/-- Are the replies the same, but for the name in a refusal? -/
inductive Reply.Alike : Reply → Reply → Prop
  | same (r : Reply) : Alike r r
  | unstarted (cause : Host.Cause) (p p' : Text) :
      Alike (.unstarted (.system cause p)) (.unstarted (.system cause p'))

/-! ## Worlds -/

/-- The tools that put `sudo` before what needs privileges. -/
def Tools.privilegedLive : Tools := ⟨true, false⟩

/-- The tools that do not. -/
def Tools.plainLive : Tools := ⟨false, false⟩

/-- Do the programs answer every command in the same way, with and without `sudo`, after the same
commands with and without it? Hosts are compared without what was written to logs. -/
def Programs.IgnoresPrivilege (programs : Programs) (logs : List Nat) : Prop :=
  ∀ earlier (calls : List Call) c h h', Host.SameButLogs logs h h' →
    let answer := programs (earlier ++ calls.map Tools.privilegedLive.start)
      (Tools.privilegedLive.start c) h
    let answer' := programs (earlier ++ calls.map Tools.plainLive.start)
      (Tools.plainLive.start c) h'
    answer.1.Alike answer'.1 ∧ Host.SameButLogs logs answer.2 answer'.2

/-- Have two runs that differ by `sudo` led from the first world to the others? They started the
same commands and printed the same. -/
structure World.Twins (w₀ w w' : World) : Prop where
  journal : w.journal = w₀.journal
  journal' : w'.journal = w₀.journal
  host : Host.SameButLogs w₀.journal.openLogs w.host w'.host
  trace : ∃ added added', w.trace = w₀.trace ++ added ∧ w'.trace = w₀.trace ++ added' ∧
    outputOf added' = outputOf added ∧ ∃ calls : List Call,
      startsOf added = calls.map Tools.privilegedLive.start ∧
        startsOf added' = calls.map Tools.plainLive.start

namespace World

variable {w₀ w w' v v' : World}

theorem Twins.refl (w : World) : w.Twins w w :=
  ⟨rfl, rfl, rfl, [], [], (List.append_nil _).symm, (List.append_nil _).symm, rfl, [], rfl, rfl⟩

/-- Twins stay twins by steps that start the same commands and print the same. -/
theorem Twins.step (h : w₀.Twins w w') (calls : List Call) (hj : v.journal = w.journal)
    (hj' : v'.journal = w'.journal) (hh : Host.SameButLogs w₀.journal.openLogs v.host v'.host)
    {more more' : List Event} (ht : v.trace = w.trace ++ more) (ht' : v'.trace = w'.trace ++ more')
    (ho : outputOf more' = outputOf more)
    (hs : startsOf more = calls.map Tools.privilegedLive.start)
    (hs' : startsOf more' = calls.map Tools.plainLive.start) : w₀.Twins v v' := by
  obtain ⟨added, added', hw, hw', hout, before, hstarts, hstarts'⟩ := h.trace
  refine ⟨hj.trans h.journal, hj'.trans h.journal', hh, added ++ more, added' ++ more', ?_, ?_, ?_,
    before ++ calls, ?_, ?_⟩
  · rw [ht, hw, List.append_assoc]
  · rw [ht', hw', List.append_assoc]
  · rw [outputOf_append, outputOf_append, hout, ho]
  · rw [startsOf_append, hstarts, hs, List.map_append]
  · rw [startsOf_append, hstarts', hs', List.map_append]

/-- Twins whose traces stay. -/
theorem Twins.withHosts (h : w₀.Twins w w') {host host' : Host}
    (hh : Host.SameButLogs w₀.journal.openLogs host host') :
    w₀.Twins { w with host := host } { w' with host := host' } :=
  h.step [] rfl rfl hh (List.append_nil _).symm (List.append_nil _).symm rfl rfl rfl

end World

/-! ## Runs -/

namespace Run

variable {α α' β β' : Type} {R : α → α' → Prop} {S : β → β' → Prop} {programs : Programs}
  {w₀ : World}

/-- Do the runs lead twins to twins, with outcomes that are alike? -/
def Twins (programs : Programs) (w₀ : World) (R : α → α' → Prop) (r : Run α) (r' : Run α') : Prop :=
  ∀ w w', w₀.Twins w w' → Outcome.Alike R (r programs w).1 (r' programs w').1 ∧
    w₀.Twins (r programs w).2 (r' programs w').2

theorem Twins.bind {r : Run α} {r' : Run α'} {k : α → Run β} {k' : α' → Run β'}
    (hr : r.Twins programs w₀ R r') (hk : ∀ a a', R a a' → (k a).Twins programs w₀ S (k' a')) :
    (r >>= k).Twins programs w₀ S (r' >>= k') := by
  intro w w' hw
  obtain ⟨hres, hw₁⟩ := hr w w' hw
  rcases hrw : r programs w with ⟨e, w₁⟩
  rcases hrw' : r' programs w' with ⟨e', w₁'⟩
  rw [hrw, hrw'] at hres hw₁
  cases hres with
  | ok hR =>
    rw [bind_of_ok hrw, bind_of_ok hrw']
    exact hk _ _ hR _ _ hw₁
  | error hf =>
    rw [bind_of_error hrw, bind_of_error hrw']
    exact ⟨.error hf, hw₁⟩

theorem Twins.attempt {r : Run α} {r' : Run α'} (hr : r.Twins programs w₀ R r') :
    (Run.attempt r).Twins programs w₀ (Outcome.Alike R) (Run.attempt r') := by
  intro w w' hw
  obtain ⟨hres, hw₁⟩ := hr w w' hw
  exact ⟨.ok hres, hw₁⟩

theorem twins_pure {a : α} {a' : α'} (h : R a a') :
    (pure a : Run α).Twins programs w₀ R (pure a') :=
  fun _ _ hw => ⟨.ok h, hw⟩

theorem twins_fail {f f' : Failure} (h : f.Alike f') :
    (fail f : Run α).Twins programs w₀ R (fail f' : Run α') :=
  fun _ _ hw => ⟨.error h, hw⟩

theorem Twins.ite {c : Prop} [Decidable c] {r s : Run α} {r' s' : Run α'}
    (hr : r.Twins programs w₀ R r') (hs : s.Twins programs w₀ R s') :
    (if c then r else s).Twins programs w₀ R (if c then r' else s') := by
  split
  · exact hr
  · exact hs

/-- Hosts that are the same but for the logs look the same. -/
theorem outcome_alike_refused (e : Except Host.Refusal α) :
    Outcome.Alike Eq (e.mapError Failure.refused) (e.mapError Failure.refused) := by
  cases e with
  | ok a => exact .ok rfl
  | error why => exact .error (.same _)

theorem twins_look {f : Host → Except Host.Refusal α} (hf : ∀ logs h, f (h.blank logs) = f h) :
    (look f).Twins programs w₀ Eq (look f) := by
  intro w w' hw
  have hsame : f w'.host = f w.host := by
    rw [← hf w₀.journal.openLogs, hw.host, hf]
  refine ⟨?_, hw⟩
  change Outcome.Alike Eq ((f w.host).mapError _) ((f w'.host).mapError _)
  rw [hsame]
  exact outcome_alike_refused _

theorem twins_change {f : Host → Except Host.Refusal α × Host}
    (hf : ∀ logs h, f (h.blank logs) = ((f h).1, (f h).2.blank logs)) :
    (change f).Twins programs w₀ Eq (change f) := by
  intro w w' hw
  have hsame := congrArg f hw.host
  rw [hf, hf] at hsame
  refine ⟨?_, hw.withHosts (congrArg Prod.snd hsame)⟩
  change Outcome.Alike Eq ((f w.host).1.mapError _) ((f w'.host).1.mapError _)
  rw [congrArg Prod.fst hsame]
  exact outcome_alike_refused _

theorem twins_note {e : Event} (he : e.start? = none) :
    (note e).Twins programs w₀ Eq (note e) := by
  intro w w' hw
  have hs : startsOf [e] = [] := by simp [startsOf, he]
  exact ⟨.ok rfl, hw.step [] rfl rfl hw.host rfl rfl rfl hs hs⟩

/-- The journals get their own records. -/
theorem twins_write (r r' : Journal.Record) :
    (write r).Twins programs w₀ Eq (write r') := by
  intro w w' hw
  obtain ⟨hj, hh, added, ht, ha⟩ := World.added_of_write r programs w
  obtain ⟨hj', hh', added', ht', ha'⟩ := World.added_of_write r' programs w'
  have hstarts : ∀ {more : List Event}, actsOf more = [] → startsOf more = [] := by
    intro more h
    rw [← startsOf_actsOf, h]
    rfl
  have hosts : Host.SameButLogs w₀.journal.openLogs (write r programs w).2.host
      (write r' programs w').2.host := by
    rw [hw.journal] at hh
    rw [hw.journal'] at hh'
    exact hh'.trans (hw.host.trans hh.symm)
  refine ⟨?_, hw.step [] hj hj' hosts ht ht' ?_ (hstarts ha) (hstarts ha')⟩
  · rw [write_eq r, write_eq r']
    exact .ok rfl
  · rw [outputOf_of_actsOf ha, outputOf_of_actsOf ha']

theorem twins_log {level : Journal.Level} {channel : Journal.Channel} {m m' : Text} :
    (log level channel m).Twins programs w₀ Eq (log level channel m') :=
  twins_write _ _

/-! ## Commands -/

theorem twins_logOutput {label text : String} :
    (Command.logOutput label text).Twins programs w₀ Eq (Command.logOutput label text) := by
  unfold Command.logOutput
  exact .ite (twins_pure rfl) twins_log

variable (hp : programs.IgnoresPrivilege w₀.journal.openLogs)
include hp

theorem twins_start (c : Call) : (start (Tools.privilegedLive.start c)).Twins programs w₀
    Reply.Alike (start (Tools.plainLive.start c)) := by
  intro w w' hw
  obtain ⟨added, added', ht, ht', -, calls, hs, hs'⟩ := hw.trace
  obtain ⟨hr, hh⟩ := hp (startsOf w₀.trace) calls c w.host w'.host hw.host
  have hearlier : startsOf w.trace =
      startsOf w₀.trace ++ calls.map Tools.privilegedLive.start := by
    rw [ht, startsOf_append, hs]
  have hearlier' : startsOf w'.trace = startsOf w₀.trace ++ calls.map Tools.plainLive.start := by
    rw [ht', startsOf_append, hs']
  rw [← hearlier, ← hearlier'] at hr hh
  exact ⟨.ok hr, hw.step [c] rfl rfl hh rfl rfl rfl rfl rfl⟩

/-- A command ends in the same way with `sudo` and without it. -/
theorem twins_command (c : Call) (check : Bool) :
    (Tools.privilegedLive.run check (Tools.privilegedLive.argv c)).Twins programs w₀
      (fun x x' => x.ok = x'.ok) (Tools.plainLive.run check (Tools.plainLive.argv c)) := by
  have hstart := twins_start hp c
  unfold Tools.start at hstart
  unfold Tools.run Command.run
  obtain ⟨name, rest, hargv⟩ := List.exists_cons_of_ne_nil (Tools.privilegedLive.argv_ne_nil c)
  obtain ⟨name', rest', hargv'⟩ := List.exists_cons_of_ne_nil (Tools.plainLive.argv_ne_nil c)
  rw [hargv, hargv'] at hstart ⊢
  simp only [Tools.privilegedLive, Tools.plainLive, Bool.false_eq_true, if_false]
  refine twins_log.bind fun _ _ _ => hstart.bind fun r r' hr => ?_
  cases hr with
  | same r =>
    cases r with
    | exited status out err =>
      refine twins_logOutput.bind fun _ _ _ => twins_logOutput.bind fun _ _ _ => ?_
      exact .ite (twins_fail (.command _ _)) (twins_pure rfl)
    | unstarted why =>
      rcases why with ⟨_ | _, p⟩ | _ | _ | _
      · exact .ite (twins_fail (.command _ _)) (twins_log.bind fun _ _ _ => twins_pure rfl)
      all_goals exact twins_fail (.same _)
    | garbled => exact twins_fail (.same _)
    | interrupted => exact twins_fail (.same _)
  | unstarted cause p p' =>
    cases cause with
    | missing =>
      exact .ite (twins_fail (.command _ _)) (twins_log.bind fun _ _ _ => twins_pure rfl)
    | _ => exact twins_fail (.refused _ p p')

end Run

/-! ## Jobs -/

namespace Job

open Run

variable {programs : Programs} {w₀ : World}

/-- That two runs are twins is respected by the ways to put runs of a job together. -/
def twinsCongruence (hp : programs.IgnoresPrivilege w₀.journal.openLogs) {j : Job}
    (hj : j.tools = Tools.privilegedLive) : j.Congruence Tools.plainLive where
  Rel r r' := r.Twins programs w₀ Eq r'
  May _ := True
  may_own _ := trivial
  pure _ := twins_pure rfl
  fail hf _ := twins_fail hf
  bind hr hk := hr.bind fun a _ ha => ha ▸ hk a
  attempt hr hok hf := hr.attempt.bind fun e e' he => by
    cases he with
    | ok ha => exact ha ▸ hok _
    | error hff => exact hf _ _ hff trivial
  print _ := twins_note rfl
  seek := (twins_look fun logs h => Host.doesExist_blank logs h j.mountDir).bind fun _ _ hb => by
    cases hb
    exact (twins_note rfl).bind fun _ _ _ => twins_pure rfl
  discard := by
    rw [discard_eq]
    refine (twins_look fun logs h => Host.isDirectory_blank logs h j.mountDir).bind fun d _ hd =>
      hd ▸ (twins_note rfl).bind fun _ _ _ => .ite ?_ ?_
    · exact twins_change fun logs h => Host.removeTree_blank logs h j.mountDir
    · exact twins_change fun logs h => Host.unlink_blank logs h j.mountDir
  log _ := twins_log
  tool {_ c check _ _} _ hk := by
    rw [hj]
    exact (twins_command hp c check).bind hk

/-- A job with `sudo` and the same job without it go the same way. -/
theorem twins_carryOut (hp : programs.IgnoresPrivilege w₀.journal.openLogs) {j : Job}
    (hj : j.tools = Tools.privilegedLive) :
    j.carryOut.Twins programs w₀ Eq (j.withTools Tools.plainLive).carryOut :=
  (twinsCongruence hp hj).carryOut ((twins_note rfl).bind fun _ _ _ =>
    twins_change fun logs h => Host.makeDirectory_blank logs h j.mountDir) fun _ => trivial

end Job

end FatInstall
