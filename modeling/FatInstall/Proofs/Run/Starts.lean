import FatInstall.Proofs.Run.Congruence

/-!
# What a run can do

Whatever the host and its other programs do, and whether the run is dry or not, an update starts
only commands of its job: eight commands, each with operands that the job fixes. The one path that
it looks for and removes is the one of the scratch directory.

* `Run.Does`: all that a run can do is of a kind. It is closed under sequencing.
* `Job.Can`: the events that a job can come to on its way.
* `Job.doesCongruence`: so the runs of a job do nothing else.
* `starts_update`: an update starts nothing but commands of its job.
-/

namespace FatInstall

namespace Run

variable {α β : Type} {E : Event → Prop}

/-- Is every event that the run adds, in every world, of the kind? -/
def Does (r : Run α) (E : Event → Prop) : Prop :=
  ∀ programs w, ∃ added, (r programs w).2.trace = w.trace ++ added ∧ ∀ e ∈ added, E e

theorem Does.bind {r : Run α} {k : α → Run β} (hr : r.Does E) (hk : ∀ a, (k a).Does E) :
    (r >>= k).Does E := by
  intro programs w
  obtain ⟨added, ht, he⟩ := hr programs w
  rcases hrw : r programs w with ⟨f | a, w'⟩ <;> rw [hrw] at ht
  · rw [bind_of_error hrw]
    exact ⟨added, ht, he⟩
  · rw [bind_of_ok hrw]
    obtain ⟨more, ht', he'⟩ := hk a programs w'
    exact ⟨added ++ more, by rw [ht', ht, List.append_assoc], List.forall_mem_append.2 ⟨he, he'⟩⟩

theorem Does.attempt {r : Run α} (hr : r.Does E) : (Run.attempt r).Does E := hr

/-! ## Steps that add no act -/

theorem does_of_trace {r : Run α} (h : ∀ programs w, (r programs w).2.trace = w.trace) :
    r.Does E :=
  fun programs w => ⟨[], by rw [h, List.append_nil], by simp⟩

theorem does_ofExcept {e : Except Failure α} : (ofExcept e).Does E :=
  does_of_trace fun _ _ => rfl

theorem does_pure {a : α} : (pure a : Run α).Does E := does_ofExcept

theorem does_fail {f : Failure} : (fail f : Run α).Does E := does_ofExcept

theorem does_look {f : Host → Except Host.Refusal α} : (look f).Does E :=
  does_of_trace fun _ _ => rfl

theorem does_change {f : Host → Except Host.Refusal α × Host} : (change f).Does E :=
  does_of_trace fun _ _ => rfl

theorem does_note {e : Event} (he : E e) : (note e).Does E :=
  fun _ _ => ⟨[e], rfl, by simpa using he⟩

theorem does_start {st : Start} (h : ∀ r, E (.started st r)) : (start st).Does E :=
  fun _ _ => ⟨[.started st _], rfl, by simpa using h _⟩

section

variable (hquiet : ∀ e : Event, e.isAct = false → E e)
include hquiet

theorem does_write {r : Journal.Record} : (write r).Does E := by
  intro programs w
  obtain ⟨added, ht, ha⟩ : ∃ added, (write r programs w).2.trace = w.trace ++ added ∧
      actsOf added = [] := by
    let s : Scene := .free programs w.journal.openLogs
    have hwrite : (write r).Obeys s (w.host.blank s.logs) fun acts _ _ => acts = [] :=
      obeys_write rfl
    obtain ⟨added, ht, -, -, ha⟩ := hwrite w rfl rfl
    exact ⟨added, ht, ha⟩
  refine ⟨added, ht, fun e he => hquiet e ?_⟩
  simpa using List.filter_eq_nil_iff.1 ha e he

theorem does_log {level : Journal.Level} {channel : Journal.Channel} {message : Text} :
    (log level channel message).Does E :=
  does_write hquiet

/-! ## Commands -/

theorem does_logOutput {label text : String} : (Command.logOutput label text).Does E := by
  unfold Command.logOutput
  split
  · exact does_pure
  · exact does_log hquiet

theorem does_command {argv : List Text} {mode : Command.Mode}
    (h : ∀ r, E (.started ⟨argv, mode.input, mode.cwd, mode.env⟩ r)) :
    (Command.run argv mode).Does E := by
  unfold Command.run
  refine (does_log hquiet).bind fun _ => ?_
  split
  · exact does_pure
  cases argv with
  | nil => exact does_fail
  | cons name rest =>
    refine (does_start h).bind fun r => ?_
    split
    · -- there is no such command
      dsimp only
      split
      · exact does_fail
      · exact (does_log hquiet).bind fun _ => does_pure
    · exact does_fail
    · exact does_fail
    · exact does_fail
    · refine (does_logOutput hquiet).bind fun _ => (does_logOutput hquiet).bind fun _ => ?_
      dsimp only
      split
      · exact does_fail
      · exact does_pure

end

end Run

/-! ## Jobs -/

namespace Job

open Run

/-- Is it one of the job's commands, started by its tools? -/
def CanStart (j : Job) (s : Start) : Prop := ∃ c ∈ j.calls, s = j.tools.start c

/-- Can the event come of the job, once its way is chosen? It starts only its commands, looks for
and removes only its scratch directory, and makes no directory. -/
def Can (j : Job) : Event → Prop
  | .started s _ => j.CanStart s
  | .sought p _ | .removing p => p = j.mountDir
  | .making _ => False
  | _ => True

/-- Lines of the journal can always come. -/
theorem can_of_quiet (j : Job) (e : Event) (he : e.isAct = false) : j.Can e := by
  cases e <;> trivial

theorem can_sought (j : Job) {found : Bool} : j.Can (.sought j.mountDir found) := rfl

theorem can_removing (j : Job) : j.Can (.removing j.mountDir) := rfl

/-- What a job does is respected by the ways to put runs together. -/
def doesCongruence (j : Job) {E : Event → Prop} (hE : ∀ e, j.Can e → E e) :
    j.Congruence j.tools where
  Rel r _ := r.Does E
  May _ := True
  may_own _ := trivial
  pure _ := does_pure
  fail _ _ := does_fail
  bind hr hk := hr.bind hk
  attempt hr hok hf := hr.attempt.bind fun
    | .ok a => hok a
    | .error f => hf f f (.same f) trivial
  print _ := does_note (hE _ trivial)
  seek := does_look.bind fun _ => (does_note (hE _ j.can_sought)).bind fun _ => does_pure
  discard := by
    rw [discard_eq]
    refine does_look.bind fun d => (does_note (hE _ j.can_removing)).bind fun _ => ?_
    cases d <;> exact does_change
  log _ := does_log fun e he => hE e (j.can_of_quiet e he)
  tool hc hk := (does_command (fun e he => hE e (j.can_of_quiet e he))
    fun _ => hE _ ⟨_, hc, rfl⟩).bind fun x => hk x x rfl

end Job

/-! ## Updates -/

open Run in
/-- An update starts nothing but commands of the job that its settings ask for. -/
theorem starts_update {source : Path} {settings : Settings} {tools : Option Tools}
    (programs : Programs) (w : World) :
    ∃ added, (update source settings tools programs w).2.trace = w.trace ++ added ∧
      ∀ s ∈ startsOf added, ∃ image j, settings.job source image tools = .ok j ∧ j.CanStart s := by
  rw [update_eq_admission]
  cases hj : admission w.host source settings tools with
  | error f => exact ⟨[], (List.append_nil _).symm, by simp [startsOf]⟩
  | ok j =>
    obtain ⟨image, -, -, -, hset⟩ := admission_eq_ok.1 hj
    let E : Event → Prop := fun e => ∀ s, e.start? = some s → j.CanStart s
    have hE : ∀ e, j.Can e → E e := by
      rintro (_ | _ | _ | _ | _ | _ | _) he s hs <;> cases hs
      exact he
    have hmake : (make j.mountDir).Does E :=
      (does_note (fun s hs => by cases hs)).bind fun _ => does_change
    obtain ⟨added, ht, hcan⟩ := (j.doesCongruence hE).carryOut hmake (fun _ => trivial) programs w
    refine ⟨added, ht, fun s hs => ⟨image, j, hset, ?_⟩⟩
    obtain ⟨e, he, hstart⟩ := List.mem_filterMap.1 hs
    exact hcan e he s hstart

end FatInstall
