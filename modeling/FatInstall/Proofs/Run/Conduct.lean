import FatInstall.Proofs.Host.Logs
import FatInstall.World

/-!
# How runs behave

A run is described by what can come of it: the acts it adds to the trace, its result, and the host
it leaves, given the host it begins with. Lines of the journal are no acts, and hosts are taken
without what was written to logs, so that a description says nothing about the journal.

* `Scene`: the programs of the host, the log files that are open, and how a started program may
  change the host.
* `Conduct`: a description. `Run.Obeys r s h C` says that every run of `r` in the scene, from the
  host `h`, is one that `C` describes, that it leaves the journal as it was, and that every reply
  in it is one that the programs gave.
* One rule for each way to build a run: `Obeys.bind` for one run after the other, and a rule for
  each single step.
-/

namespace FatInstall

/-! ## Acts -/

/-- Is the event more than a line of the journal? -/
def Event.isAct : Event → Bool
  | .logged _ | .complained _ => false
  | _ => true

/-- The acts of a trace. -/
def actsOf (trace : List Event) : List Event := trace.filter Event.isAct

@[simp] theorem actsOf_append (t u : List Event) : actsOf (t ++ u) = actsOf t ++ actsOf u :=
  List.filter_append ..

/-- The starts in a trace are acts. -/
theorem startsOf_actsOf (trace : List Event) : startsOf (actsOf trace) = startsOf trace := by
  simp only [startsOf, actsOf, List.filterMap_filter]
  congr 1
  funext e
  cases e <;> rfl

theorem startsOf_append (t u : List Event) : startsOf (t ++ u) = startsOf t ++ startsOf u :=
  List.filterMap_append ..

/-- Is every reply in the trace one that the programs give there, after the earlier starts? -/
def Answered (programs : Programs) : List Start → List Event → Prop
  | _, [] => True
  | earlier, .started s r :: rest =>
    (∃ h, (programs earlier s h).1 = r) ∧ Answered programs (earlier ++ [s]) rest
  | earlier, _ :: rest => Answered programs earlier rest

theorem Answered.append {programs : Programs} {t u : List Event} :
    ∀ {earlier : List Start}, Answered programs earlier t →
      Answered programs (earlier ++ startsOf t) u → Answered programs earlier (t ++ u) := by
  induction t with
  | nil => intro earlier _ hu; simpa [startsOf] using hu
  | cons e t ih =>
    intro earlier ht hu
    cases e with
    | started s r => exact ⟨ht.1, ih ht.2 (by simpa [startsOf, Event.start?] using hu)⟩
    | _ => exact @ih earlier ht hu

theorem answered_actsOf {programs : Programs} {t : List Event} :
    ∀ {earlier : List Start}, Answered programs earlier t →
      Answered programs earlier (actsOf t) := by
  induction t with
  | nil => exact fun h => h
  | cons e t ih =>
    intro earlier h
    cases e with
    | started s r => exact ⟨h.1, ih h.2⟩
    | _ => exact @ih earlier h

/-- What holds of every reply of the programs holds of every reply in the trace. -/
theorem Answered.forall_reply {programs : Programs} {P : Reply → Prop}
    (hP : ∀ earlier s h, P (programs earlier s h).1) {t : List Event} :
    ∀ {earlier : List Start}, Answered programs earlier t → ∀ s r, .started s r ∈ t → P r := by
  induction t with
  | nil => intro earlier _ s r hm; cases hm
  | cons e t ih =>
    intro earlier h s r hm
    rcases List.mem_cons.1 hm with rfl | ht
    · obtain ⟨⟨host, rfl⟩, -⟩ := h
      exact hP ..
    · cases e with
      | started s' r' => exact ih h.2 s r ht
      | _ => exact @ih earlier h s r ht

/-! ## Scenes and descriptions -/

/-- The numbers of the log files that are open. -/
def Journal.openLogs (j : Journal) : List Nat :=
  j.sinks.filterMap fun
    | .file number => number
    | .console => none

/-- What a run takes place in. -/
structure Scene where
  programs : Programs
  /-- The log files that are open. -/
  logs : List Nat
  /-- How a started program may change the host. -/
  touch : Host → Host → Prop
  touch_programs : ∀ earlier s h, touch (h.blank logs) ((programs earlier s h).2.blank logs)

/-- The host stays as it is. -/
def Still (h h' : Host) : Prop := h' = h

/-- Does no program touch the host? -/
def Inert (programs : Programs) : Prop := ∀ earlier s h, (programs earlier s h).2 = h

/-- A scene in which no program touches the host. -/
def Scene.still (programs : Programs) (logs : List Nat) (hp : Inert programs) : Scene where
  programs := programs
  logs := logs
  touch := Still
  touch_programs := fun earlier s h => congrArg (Host.blank logs) (hp earlier s h)

/-- A scene in which a program may do anything to the host. -/
def Scene.free (programs : Programs) (logs : List Nat) : Scene where
  programs := programs
  logs := logs
  touch _ _ := True
  touch_programs _ _ _ := trivial

/-- A description of runs: the acts, the result, and the host afterwards. -/
abbrev Conduct (α : Type) := List Event → Except Failure α → Host → Prop

/-- Is every run from the host one that is described? -/
def Run.Obeys {α : Type} (r : Run α) (s : Scene) (h : Host) (C : Conduct α) : Prop :=
  ∀ w : World, w.journal.openLogs = s.logs → w.host.blank s.logs = h → ∃ added,
    (r s.programs w).2.trace = w.trace ++ added ∧
      (r s.programs w).2.journal = w.journal ∧
        Answered s.programs (startsOf w.trace) added ∧
          C (actsOf added) (r s.programs w).1 ((r s.programs w).2.host.blank s.logs)

namespace Run

variable {α β : Type} {s : Scene} {h : Host} {C D : Conduct α}

theorem Obeys.mono {r : Run α} (hr : r.Obeys s h C)
    (hCD : ∀ acts res h', C acts res h' → D acts res h') : r.Obeys s h D := by
  intro w hw hh
  obtain ⟨added, ht, hj, ha, hC⟩ := hr w hw hh
  exact ⟨added, ht, hj, ha, hCD _ _ _ hC⟩

/-! ## One run after the other -/

/-- A failure of the first run ends both; else the second run goes on from where the first one
ended. -/
theorem Obeys.bind {r : Run α} {k : α → Run β} {C : Conduct β} (hr : r.Obeys s h D)
    (hf : ∀ xs f m, D xs (.error f) m → C xs (.error f) m)
    (hk : ∀ xs a m, D xs (.ok a) m → (k a).Obeys s m fun ys res h' => C (xs ++ ys) res h') :
    (r >>= k).Obeys s h C := by
  intro w hw hh
  obtain ⟨xs, ht, hj, ha, hD⟩ := hr w hw hh
  have e : (r >>= k) s.programs w = Run.andThen r k s.programs w := rfl
  rw [e, Run.andThen]
  rcases hrun : r s.programs w with ⟨f | a, w₁⟩ <;> rw [hrun] at ht hj hD <;>
    dsimp only at ht hj hD ⊢
  · exact ⟨xs, ht, hj, ha, hf _ _ _ hD⟩
  · obtain ⟨ys, ht', hj', ha', hC⟩ := hk _ a _ hD w₁ (by rw [hj]; exact hw) rfl
    refine ⟨xs ++ ys, by rw [ht', ht, List.append_assoc], hj'.trans hj, ?_, ?_⟩
    · rw [ht, startsOf_append] at ha'
      exact ha.append ha'
    · rw [actsOf_append]
      exact hC

/-- A failure of the run is handed on as a result. -/
theorem obeys_attempt {r : Run α} {C : Conduct (Except Failure α)}
    (hr : r.Obeys s h fun acts res h' => C acts (.ok res) h') : (attempt r).Obeys s h C := by
  intro w hw hh
  obtain ⟨added, ht, hj, ha, hC⟩ := hr w hw hh
  exact ⟨added, ht, hj, ha, hC⟩

/-- The second run goes on from a failure of the first one as well. -/
theorem Obeys.bind_attempt {r : Run α} {k : Except Failure α → Run β} {C : Conduct β}
    (hr : r.Obeys s h D)
    (hk : ∀ xs res m, D xs res m →
      (k res).Obeys s m fun ys res' h' => C (xs ++ ys) res' h') :
    (attempt r >>= k).Obeys s h C := by
  refine Obeys.bind (D := fun xs res m => ∃ e, res = .ok e ∧ D xs e m)
    (obeys_attempt (hr.mono fun xs e m hD => ⟨e, rfl, hD⟩)) ?_ ?_
  · rintro xs f m ⟨e, he, -⟩
    cases he
  · rintro xs a m ⟨e, he, hD⟩
    cases he
    exact hk xs a m hD

/-! ## Steps that are no acts -/

theorem mapError_ok {ε ε' : Type} (f : ε → ε') (a : α) :
    (.ok a : Except ε α).mapError f = .ok a :=
  rfl

theorem mapError_error {ε ε' : Type} (f : ε → ε') (e : ε) :
    (.error e : Except ε α).mapError f = .error (f e) :=
  rfl

theorem obeys_ofExcept {e : Except Failure α} (H : C [] e h) : (ofExcept e).Obeys s h C :=
  fun _ _ hh => ⟨[], (List.append_nil _).symm, rfl, trivial, hh ▸ H⟩

theorem obeys_pure {a : α} (H : C [] (.ok a) h) : (pure a : Run α).Obeys s h C :=
  obeys_ofExcept H

theorem obeys_fail {f : Failure} (H : C [] (.error f) h) : (fail f : Run α).Obeys s h C :=
  obeys_ofExcept H

/-- A look at what is the same without the logs. -/
theorem obeys_look {f : Host → Except Host.Refusal α} (hf : ∀ h : Host, f (h.blank s.logs) = f h)
    (H : C [] ((f h).mapError Failure.refused) h) : (look f).Obeys s h C := by
  rintro w - rfl
  refine ⟨[], (List.append_nil _).symm, rfl, trivial, ?_⟩
  rwa [hf] at H

/-- A change that does not depend on the logs. -/
theorem obeys_alter {f : Host → Except Failure α × Host}
    (hf : ∀ h : Host, f (h.blank s.logs) = ((f h).1, (f h).2.blank s.logs))
    (H : C [] (f h).1 (f h).2) : (alter f).Obeys s h C := by
  rintro w - rfl
  refine ⟨[], (List.append_nil _).symm, rfl, trivial, ?_⟩
  rwa [hf] at H

theorem obeys_change {f : Host → Except Host.Refusal α × Host}
    (hf : ∀ h : Host, f (h.blank s.logs) = ((f h).1, (f h).2.blank s.logs))
    (H : C [] ((f h).1.mapError Failure.refused) (f h).2) : (change f).Obeys s h C :=
  obeys_alter (fun h => by rw [hf]) H

theorem Obeys.bind_ofExcept {e : Except Failure α} {k : α → Run β} {C : Conduct β}
    (hf : ∀ f, e = .error f → C [] (.error f) h) (hk : ∀ a, e = .ok a → (k a).Obeys s h C) :
    (ofExcept e >>= k).Obeys s h C := by
  refine Obeys.bind (D := fun xs res m => xs = [] ∧ res = e ∧ m = h)
    (obeys_ofExcept ⟨rfl, rfl, rfl⟩) ?_ ?_
  · rintro xs f m ⟨rfl, he, rfl⟩
    exact hf f he.symm
  · rintro xs a m ⟨rfl, he, rfl⟩
    exact hk a he.symm

theorem Obeys.bind_look {f : Host → Except Host.Refusal α} {k : α → Run β} {C : Conduct β}
    (hf : ∀ h : Host, f (h.blank s.logs) = f h)
    (he : ∀ why, f h = .error why → C [] (.error (.refused why)) h)
    (hk : ∀ a, f h = .ok a → (k a).Obeys s h C) : (look f >>= k).Obeys s h C := by
  refine Obeys.bind (D := fun xs res m =>
    xs = [] ∧ res = (f h).mapError Failure.refused ∧ m = h) (obeys_look hf ⟨rfl, rfl, rfl⟩) ?_ ?_
  · rintro xs e m ⟨rfl, hr, rfl⟩
    cases hfm : f m <;> rw [hfm] at hr <;> cases hr
    exact he _ hfm
  · rintro xs a m ⟨rfl, hr, rfl⟩
    cases hfm : f m <;> rw [hfm] at hr <;> cases hr
    exact hk _ hfm

/-- A failure under a condition, before a run that goes on without it. -/
theorem Obeys.fail_if {c : Prop} [Decidable c] {f : Failure} {k : Unit → Run β} {C : Conduct β}
    (hf : c → C [] (.error f) h) (hk : ¬c → (k ()).Obeys s h C) :
    (if c then fail f >>= k else k ()).Obeys s h C := by
  split
  · next hc => exact obeys_fail (hf hc)
  · next hc => exact hk hc

/-- What sending a record to the sinks does to a world: the journal stays, and nothing is seen of
it in the acts, the starts and the host. -/
theorem foldl_sendTo {logs : List Nat} (r : Journal.Record) (sinks : List Journal.Sink)
    (w : World) (h : ∀ n, .file (some n) ∈ sinks → n ∈ logs) :
    (sinks.foldl (sendTo r) w).journal = w.journal ∧
      (sinks.foldl (sendTo r) w).host.blank logs = w.host.blank logs ∧
        ∃ added, (sinks.foldl (sendTo r) w).trace = w.trace ++ added ∧
          ∀ e ∈ added, ∃ t, e = .complained t := by
  induction sinks generalizing w with
  | nil => exact ⟨rfl, rfl, [], (List.append_nil _).symm, by simp⟩
  | cons sink sinks ih =>
    obtain ⟨hj, hh, added, ht, ha⟩ :=
      ih (sendTo r w sink) fun n hn => h n (List.mem_cons_of_mem _ hn)
    rw [List.foldl_cons]
    match sink with
    | .console =>
      refine ⟨hj, hh, .complained (w.journal.lines r) :: added, ?_, ?_⟩
      · simpa [sendTo] using ht
      · rintro e (_ | ⟨_, he⟩)
        · exact ⟨_, rfl⟩
        · exact ha e he
    | .file none => exact ⟨hj, hh, added, ht, ha⟩
    | .file (some n) =>
      have hn : n ∈ logs := h n List.mem_cons_self
      cases hs : (w.journal.lines r).string? with
      | none =>
        simp only [sendTo, hs] at hj hh ht ⊢
        exact ⟨hj, hh, added, ht, ha⟩
      | some line =>
        simp only [sendTo, hs] at hj hh ht ⊢
        refine ⟨hj, hh.trans ?_, added, ht, ha⟩
        simp [Host.blank, Host.Tree.blank_append hn]

theorem actsOf_complaints {added : List Event} (h : ∀ e ∈ added, ∃ t, e = .complained t) :
    actsOf added = [] :=
  List.filter_eq_nil_iff.2 fun e he => by
    obtain ⟨t, rfl⟩ := h e he
    simp [Event.isAct]

theorem answered_complaints {programs : Programs} {earlier : List Start} {added : List Event}
    (h : ∀ e ∈ added, ∃ t, e = .complained t) : Answered programs earlier added := by
  induction added with
  | nil => trivial
  | cons e added ih =>
    obtain ⟨t, rfl⟩ := h e List.mem_cons_self
    exact ih fun e he => h e (List.mem_cons_of_mem _ he)

theorem obeys_write {r : Journal.Record} {C : Conduct Unit} (H : C [] (.ok ()) h) :
    (write r).Obeys s h C := by
  rintro w hw rfl
  unfold write
  split
  · have hlogs : ∀ n, .file (some n) ∈ w.journal.sinks → n ∈ s.logs := by
      rw [← hw]
      exact fun n hn => List.mem_filterMap.2 ⟨_, hn, rfl⟩
    obtain ⟨hj, hh, added, ht, ha⟩ :=
      foldl_sendTo r w.journal.sinks { w with trace := w.trace ++ [.logged r] } hlogs
    have he : actsOf (.logged r :: added) = [] := (actsOf_complaints ha : actsOf added = [])
    have hr : Answered s.programs (startsOf w.trace) (.logged r :: added) :=
      (answered_complaints ha : Answered s.programs (startsOf w.trace) added)
    refine ⟨.logged r :: added, by simpa using ht, hj, hr, ?_⟩
    rw [he, hh]
    exact H
  · exact ⟨[], (List.append_nil _).symm, rfl, trivial, H⟩

theorem obeys_log {level : Journal.Level} {channel : Journal.Channel} {message : Text}
    {C : Conduct Unit} (H : C [] (.ok ()) h) : (log level channel message).Obeys s h C :=
  obeys_write H

/-- A run after a line of the journal. -/
theorem Obeys.after_log {level : Journal.Level} {channel : Journal.Channel} {message : Text}
    {k : Unit → Run α} (hk : (k ()).Obeys s h C) :
    (log level channel message >>= k).Obeys s h C := by
  refine Obeys.bind (D := fun xs res m => xs = [] ∧ res = .ok () ∧ m = h)
    (obeys_log ⟨rfl, rfl, rfl⟩) (by rintro xs f m ⟨-, hf, -⟩; cases hf) ?_
  rintro xs a m ⟨rfl, -, rfl⟩
  exact hk

theorem Obeys.log_if {c : Prop} [Decidable c] {level : Journal.Level} {channel : Journal.Channel}
    {message : Text} {k : Unit → Run α} (hk : (k ()).Obeys s h C) :
    (if c then log level channel message >>= k else k ()).Obeys s h C := by
  split
  · exact Obeys.after_log hk
  · exact hk

/-! ## Acts of the program -/

/-- A note of what is neither a start nor a line of the journal. -/
theorem obeys_note {e : Event} {C : Conduct Unit} (he : e.isAct = true) (hs : e.start? = none)
    (H : C [e] (.ok ()) h) : (note e).Obeys s h C := by
  rintro w - rfl
  refine ⟨[e], rfl, rfl, ?_, ?_⟩
  · cases e <;> trivial
  · have ha : actsOf [e] = [e] := by simp [actsOf, he]
    rw [ha]
    exact H

/-- A run after a note. -/
theorem Obeys.after_note {e : Event} {k : Unit → Run α} (he : e.isAct = true)
    (hs : e.start? = none) (hk : (k ()).Obeys s h fun ys res h' => C (e :: ys) res h') :
    (note e >>= k).Obeys s h C := by
  refine Obeys.bind (D := fun xs res m => xs = [e] ∧ res = .ok () ∧ m = h)
    (obeys_note he hs ⟨rfl, rfl, rfl⟩) (by rintro xs f m ⟨-, hf, -⟩; cases hf) ?_
  rintro xs a m ⟨rfl, -, rfl⟩
  exact hk

theorem obeys_seek {p : Path} {C : Conduct Bool}
    (hw : ∀ why, h.doesExist p = .error why → C [] (.error (.refused why)) h)
    (hf : ∀ b, h.doesExist p = .ok b → C [.sought p b] (.ok b) h) : (seek p).Obeys s h C :=
  Obeys.bind_look (Host.doesExist_blank _ · _) hw fun b hb =>
    Obeys.after_note rfl rfl (obeys_pure (hf b hb))

theorem obeys_make {p : Path} {C : Conduct Unit}
    (H : C [.making p] ((h.makeDirectory p).1.mapError .refused) (h.makeDirectory p).2) :
    (make p).Obeys s h C :=
  Obeys.after_note rfl rfl (obeys_change (Host.makeDirectory_blank _ · _) H)

theorem obeys_discardBy {r : Host.TreeRemoval Failure} {p : Path} {C : Conduct Unit}
    (hw : ∀ why, h.isDirectory p = .error why → C [] (.error (.refused why)) h)
    (H : ∀ b, h.isDirectory p = .ok b →
      C [.removing p] (h.discardBy r p).1 (h.discardBy r p).2) : (discardBy r p).Obeys s h C := by
  refine Obeys.bind_look (Host.isDirectory_blank _ · _) hw fun b hb => Obeys.after_note rfl rfl ?_
  have hdiscard := H b hb
  unfold Host.discardBy at hdiscard
  rw [hb] at hdiscard
  cases b with
  | true => exact obeys_alter (f := (·.removeTreeBy r p)) (Host.removeTreeBy_blank _ · p r) hdiscard
  | false => exact obeys_alter (f := (·.unlinkBy r p)) (Host.unlinkBy_blank _ · p r) hdiscard

theorem obeys_start {st : Start} {C : Conduct Reply}
    (H : ∀ r h', s.touch h h' → C [.started st r] (.ok r) h') : (start st).Obeys s h C := by
  rintro w - rfl
  refine ⟨[.started st (s.programs (startsOf w.trace) st w.host).1], rfl, rfl,
    ⟨⟨w.host, rfl⟩, trivial⟩, ?_⟩
  exact H _ _ (s.touch_programs _ _ _)

end Run

end FatInstall
