import FatInstall.Proofs.Run.Congruence

/-!
# The host at each event

A trace says what a run did, one event after the other, and not what the host was like then. A
history goes along with it: it begins with the host that the run finds, changes it at each event as
that event does, and ends with the host that the run leaves. A look that the trace notes is then
the answer of the host of that moment, and not only what the program noted.

* `Machine`: what the commands of a host do, if they keep a state of their own.
* `Turn`: an event, between the host before and the host after it.
* `History`: the turns of a trace, one after the other.
* `History.sought`: a look in a history tells what the host was like.
* `Run.HasHistory`: the traces of all runs have a history. It is closed under sequencing.
* `hasHistory_update`: so the traces of all updates have one.
-/

namespace FatInstall

/-! ## Histories -/

/-- What a start of a command does to the host and to a state that the commands keep. -/
abbrev Machine (σ : Type) := σ → Start → Host → Reply × σ × Host

/-- The programs of a host. What they keep is what was started so far. -/
def Programs.machine (programs : Programs) : Machine (List Start) := fun earlier s h =>
  ((programs earlier s h).1, earlier ++ [s], (programs earlier s h).2)

section

variable {σ : Type} (machine : Machine σ) (logs : List Nat)

/-- What an event does to the host, and what it says about it. A record that is kept may be written
to the log files that are open. -/
inductive Turn : σ → Host → Event → σ → Host → Prop
  | started {a b : σ} {h h' : Host} {s : Start} {r : Reply} : machine a s h = (r, b, h') →
      Turn a h (.started s r) b h'
  | logged {a : σ} {h h' : Host} {r : Journal.Record} : Host.SameButLogs logs h h' →
      Turn a h (.logged r) a h'
  | printed {a : σ} {h : Host} {t : Text} : Turn a h (.printed t) a h
  | complained {a : σ} {h : Host} {t : Text} : Turn a h (.complained t) a h
  | sought {a : σ} {h : Host} {p : Path} {found : Bool} : h.doesExist p = .ok found →
      Turn a h (.sought p found) a h
  | making {a : σ} {h : Host} {p : Path} : Turn a h (.making p) a (h.makeDirectory p).2
  | removing {a : σ} {h : Host} {p : Path} : Turn a h (.removing p) a (h.discard p).2

/-- What the events of a trace do to the host, one after the other. -/
inductive History : σ → Host → List Event → σ → Host → Prop
  | nil {a : σ} {h : Host} : History a h [] a h
  | cons {a b c : σ} {h m h' : Host} {e : Event} {t : List Event} : Turn machine logs a h e b m →
      History b m t c h' → History a h (e :: t) c h'

end

namespace History

variable {σ : Type} {machine : Machine σ} {logs : List Nat} {a b c : σ} {h m h' : Host}
  {e : Event} {t u : List Event}

theorem single (hm : Turn machine logs a h e b h') : History machine logs a h [e] b h' :=
  .cons hm .nil

theorem append (ht : History machine logs a h t b m) (hu : History machine logs b m u c h') :
    History machine logs a h (t ++ u) c h' := by
  induction ht with
  | nil => exact hu
  | cons hm _ ih => exact .cons hm (ih hu)

/-- A history of two parts of a trace comes to a host and a state between them. -/
theorem exists_between (ht : History machine logs a h (t ++ u) c h') :
    ∃ b m, History machine logs a h t b m ∧ History machine logs b m u c h' := by
  induction t generalizing a h with
  | nil => exact ⟨a, h, .nil, ht⟩
  | cons e t ih =>
    cases ht with
    | cons hm hrest =>
      obtain ⟨b, m, ht, hu⟩ := ih hrest
      exact ⟨b, m, .cons hm ht, hu⟩

/-- A look tells what the host of that moment is like. -/
theorem sought {p : Path} {found : Bool}
    (ht : History machine logs a h (t ++ .sought p found :: u) c h') :
    ∃ b m, History machine logs a h t b m ∧ m.doesExist p = .ok found := by
  obtain ⟨b, m, hbefore, hafter⟩ := ht.exists_between
  cases hafter with
  | cons hm _ =>
    cases hm with
    | sought hfound => exact ⟨b, m, hbefore, hfound⟩

/-- Lines on the standard streams change nothing. -/
theorem of_complaints (ht : ∀ e ∈ t, ∃ x, e = .complained x) :
    History machine logs a h t a h := by
  induction t with
  | nil => exact .nil
  | cons e t ih =>
    obtain ⟨x, rfl⟩ := ht e List.mem_cons_self
    exact .cons .complained (ih fun e he => ht e (List.mem_cons_of_mem _ he))

end History

/-! ## Runs with a history -/

namespace Run

variable {α β : Type} {programs : Programs}

/-- Does the trace of every run have a history, from the host that the run finds to the one that it
leaves? The journal stays as it is. -/
def HasHistory (r : Run α) (programs : Programs) : Prop :=
  ∀ w, (r programs w).2.journal = w.journal ∧ ∃ added,
    (r programs w).2.trace = w.trace ++ added ∧
      History programs.machine w.journal.openLogs (startsOf w.trace) w.host added
        (startsOf (r programs w).2.trace) (r programs w).2.host

theorem HasHistory.bind {r : Run α} {k : α → Run β} (hr : r.HasHistory programs)
    (hk : ∀ a, (k a).HasHistory programs) : (r >>= k).HasHistory programs := by
  intro w
  obtain ⟨hj, added, ht, hadded⟩ := hr w
  rcases hrw : r programs w with ⟨f | a, w'⟩ <;> rw [hrw] at hj ht hadded
  · rw [bind_of_error hrw]
    exact ⟨hj, added, ht, hadded⟩
  · rw [bind_of_ok hrw]
    obtain ⟨hj', more, ht', hmore⟩ := hk a w'
    rw [hj] at hmore
    refine ⟨hj'.trans hj, added ++ more, by rw [ht', ht, List.append_assoc], ?_⟩
    exact hadded.append hmore

theorem HasHistory.attempt {r : Run α} (hr : r.HasHistory programs) :
    (Run.attempt r).HasHistory programs := hr

/-! ## Steps -/

/-- A run that leaves the world alone. -/
theorem hasHistory_of_world {r : Run α} (h : ∀ w, (r programs w).2 = w) :
    r.HasHistory programs := by
  intro w
  rw [h w]
  exact ⟨rfl, [], (List.append_nil _).symm, .nil⟩

theorem hasHistory_pure {a : α} : (pure a : Run α).HasHistory programs :=
  hasHistory_of_world fun _ => rfl

theorem hasHistory_fail {f : Failure} : (fail f : Run α).HasHistory programs :=
  hasHistory_of_world fun _ => rfl

/-- A world with one more event, which starts nothing. -/
theorem exists_history_of_turn {w w' : World} {e : Event} (he : e.start? = none)
    (ht : w'.trace = w.trace ++ [e])
    (hturn : Turn programs.machine w.journal.openLogs (startsOf w.trace) w.host e
      (startsOf w.trace) w'.host) :
    ∃ added, w'.trace = w.trace ++ added ∧
      History programs.machine w.journal.openLogs (startsOf w.trace) w.host added
        (startsOf w'.trace) w'.host := by
  have hs : startsOf w'.trace = startsOf w.trace := by
    simp [ht, startsOf, he]
  refine ⟨[e], ht, ?_⟩
  rw [hs]
  exact .single hturn

theorem hasHistory_print {line : Text} : (print line).HasHistory programs :=
  fun _ => ⟨rfl, exists_history_of_turn rfl rfl .printed⟩

theorem hasHistory_write {r : Journal.Record} : (write r).HasHistory programs := by
  intro w
  unfold write
  split
  · have hlogs : ∀ n, .file (some n) ∈ w.journal.sinks → n ∈ w.journal.openLogs :=
      fun n hn => List.mem_filterMap.2 ⟨_, hn, rfl⟩
    obtain ⟨hj, hh, added, ht, ha⟩ :=
      foldl_sendTo r w.journal.sinks { w with trace := w.trace ++ [.logged r] } hlogs
    have hstarts : startsOf added = [] := by
      rw [← startsOf_actsOf, actsOf_complaints ha]
      rfl
    dsimp only
    refine ⟨hj, .logged r :: added, by simpa using ht, ?_⟩
    have hsame : startsOf (w.trace ++ [.logged r] ++ added) = startsOf w.trace := by
      rw [startsOf_append, startsOf_append, hstarts]
      simp [startsOf, Event.start?]
    rw [ht, hsame]
    exact .cons (.logged hh) (.of_complaints ha)
  · exact ⟨rfl, [], (List.append_nil _).symm, .nil⟩

theorem hasHistory_log {level : Journal.Level} {channel : Journal.Channel} {message : Text} :
    (log level channel message).HasHistory programs :=
  hasHistory_write

theorem hasHistory_start {s : Start} : (start s).HasHistory programs := by
  intro w
  refine ⟨rfl, [_], rfl, ?_⟩
  change History _ _ (startsOf w.trace) _ _ (startsOf (w.trace ++ _)) _
  rw [startsOf_append]
  exact .single (.started rfl)

theorem look_of_ok {w : World} {f : Host → Except Host.Refusal α} {a : α}
    (hf : f w.host = .ok a) : look f programs w = (.ok a, w) := by
  rw [look, hf, mapError_ok]

theorem look_of_error {w : World} {f : Host → Except Host.Refusal α} {why : Host.Refusal}
    (hf : f w.host = .error why) : look f programs w = (.error (.refused why), w) := by
  rw [look, hf, mapError_error]

theorem hasHistory_seek {p : Path} : (seek p).HasHistory programs := by
  intro w
  rw [seek]
  cases hf : w.host.doesExist p with
  | error why =>
    rw [bind_of_error (look_of_error hf)]
    exact ⟨rfl, [], (List.append_nil _).symm, .nil⟩
  | ok found =>
    rw [bind_of_ok (look_of_ok hf)]
    exact ⟨rfl, exists_history_of_turn rfl rfl (.sought hf)⟩

theorem hasHistory_make {p : Path} : (make p).HasHistory programs :=
  fun _ => ⟨rfl, exists_history_of_turn rfl rfl .making⟩

/-- What a removal comes to. -/
theorem discard_apply (p : Path) (w : World) : discard p programs w =
    match w.host.isDirectory p with
    | .error why => (.error (.refused why), w)
    | .ok _ => ((w.host.discard p).1.mapError .refused,
        { w with host := (w.host.discard p).2, trace := w.trace ++ [.removing p] }) := by
  rw [discard_eq]
  cases hd : w.host.isDirectory p with
  | error why =>
    exact bind_of_error (look_of_error hd)
  | ok found =>
    rw [bind_of_ok (look_of_ok hd), Host.discard_eq, hd]
    cases found <;> rfl

theorem hasHistory_discard {p : Path} : (discard p).HasHistory programs := by
  intro w
  rw [discard_apply]
  split
  · exact ⟨rfl, [], (List.append_nil _).symm, .nil⟩
  · exact ⟨rfl, exists_history_of_turn rfl rfl .removing⟩

/-! ## Commands -/

theorem hasHistory_logOutput {label text : String} :
    (Command.logOutput label text).HasHistory programs := by
  unfold Command.logOutput
  split
  · exact hasHistory_pure
  · exact hasHistory_log

theorem hasHistory_command {argv : List Text} {mode : Command.Mode} :
    (Command.run argv mode).HasHistory programs := by
  unfold Command.run
  refine hasHistory_log.bind fun _ => ?_
  split
  · exact hasHistory_pure
  cases argv with
  | nil => exact hasHistory_fail
  | cons name rest =>
    refine hasHistory_start.bind fun r => ?_
    split
    · -- there is no such command
      dsimp only
      split
      · exact hasHistory_fail
      · exact hasHistory_log.bind fun _ => hasHistory_pure
    · exact hasHistory_fail
    · exact hasHistory_fail
    · exact hasHistory_fail
    · refine hasHistory_logOutput.bind fun _ => hasHistory_logOutput.bind fun _ => ?_
      dsimp only
      split
      · exact hasHistory_fail
      · exact hasHistory_pure

end Run

/-! ## Jobs and updates -/

open Run

/-- That traces have a history is respected by the ways to put runs together. -/
def Job.historyCongruence (j : Job) (programs : Programs) : j.Congruence j.tools where
  Rel r _ := r.HasHistory programs
  May _ := True
  may_own _ := trivial
  pure _ := hasHistory_pure
  fail _ _ := hasHistory_fail
  bind hr hk := hr.bind hk
  attempt hr hok hf := hr.attempt.bind fun
    | .ok a => hok a
    | .error f => hf f f (.same f) trivial
  print _ := hasHistory_print
  seek := hasHistory_seek
  discard := hasHistory_discard
  log _ := hasHistory_log
  tool _ hk := hasHistory_command.bind fun x => hk x x rfl

/-- The trace of an update has a history. -/
theorem hasHistory_update {source : Path} {settings : Settings} {tools : Option Tools}
    (programs : Programs) : (update source settings tools).HasHistory programs := by
  intro w
  rw [update_eq_admission]
  cases admission w.host source settings tools with
  | error f => exact ⟨rfl, [], (List.append_nil _).symm, .nil⟩
  | ok j => exact (j.historyCongruence programs).carryOut hasHistory_make (fun _ => trivial) w

end FatInstall
