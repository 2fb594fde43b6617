import FatInstall.Proofs.Run.History
import FatInstall.World.Script
import Mathlib.Logic.ExistsUnique

/-!
# What an update decides on

An update starts its commands in an order that depends on nothing but the exit statuses of the
commands before, and on whether the scratch directory can be made and is found again. This module
lists the possible sequences with their outcomes, and shows that there are no others.

* `Observation`: what is seen of an update: a command, without `sudo`, with its exit status, or a
  look at whether the scratch directory is there.
* `Decision`: the sequences and their outcomes, assembled from the ones of the mounted way
  (`MountedDecision`) and of the offline way (`OfflineDecision`).
* `Decision.route_eq`: the commands of a decision tell the way that it took.
* `update_decision`: an update that ends with a result or with a failure of the program's own is
  one of them, on exactly one way.
-/

namespace FatInstall

/-! ## Observations -/

/-- What is seen of a run. -/
inductive Observation
  /-- A command ended; there is no status if the command never ran to its end. -/
  | ran (words : List Text) (status : Option Int)
  /-- The program looked whether the path leads to something. -/
  | sought (path : Path) (found : Bool)
  deriving DecidableEq, Repr

/-- What is seen of an event. A command that does not exist counts as one that ended with status
127. -/
def Event.observation? : Event → Option Observation
  | .started s r => some (.ran (unprivileged s.argv) r.verdict.toOption)
  | .sought path found => some (.sought path found)
  | _ => none

/-- What is seen of a trace. -/
def observations (trace : List Event) : List Observation := trace.filterMap Event.observation?

/-- The observation that a command of the tools ended with a status. -/
def Call.did (c : Call) (n : Int) : Observation := .ran c.words (some n)

theorem observations_append (t u : List Event) :
    observations (t ++ u) = observations t ++ observations u :=
  List.filterMap_append ..

/-- Only acts are seen. -/
theorem observations_actsOf (trace : List Event) :
    observations (actsOf trace) = observations trace := by
  simp only [observations, actsOf, List.filterMap_filter]
  congr 1
  funext e
  cases e <;> rfl

theorem observations_event {j : Job} {c : Call} {r : Reply} {n : Int} (hr : r.verdict = .ok n)
    (xs : List Event) : observations (j.event c r :: xs) = c.did n :: observations xs := by
  have h : (j.event c r).observation? = some (c.did n) := by
    simp only [Job.event, Event.observation?, Tools.start, unprivileged_argv, hr]
    rfl
  exact List.filterMap_cons_some h

theorem observations_line (text : Text) (xs : List Event) :
    observations (.line text :: xs) = observations xs := rfl

theorem observations_making (path : Path) (xs : List Event) :
    observations (.making path :: xs) = observations xs := rfl

theorem observations_sought (path : Path) (found : Bool) (xs : List Event) :
    observations (.sought path found :: xs) = .sought path found :: observations xs := rfl

namespace Job

variable (j : Job)

/-! ## Decisions -/

/-- The look for the scratch directory, and the command that says whether something is mounted
there, which is not run if nothing is there. The answer is whether the directory is gone then. -/
inductive Inspection : List Observation → Bool → Prop
  | absent : Inspection [.sought j.mountDir false] true
  | mounted : Inspection [.sought j.mountDir true, (Call.mountpoint j.mountDir).did 0] false
  | removed {n : Int} : n ≠ 0 →
      Inspection [.sought j.mountDir true, (Call.mountpoint j.mountDir).did n] true

/-- The copy into the mounted image fails: the directory is not made, or the file not copied. -/
inductive CopyFailure : List Observation → CommandFault → Prop
  | unmade {why : CommandFault} : why.argv = j.tools.argv (.mkdir j.mountedDestDir) →
      why.status ≠ 0 → CopyFailure [(Call.mkdir j.mountedDestDir).did why.status] why
  | uncopied {why : CommandFault} : why.argv = j.tools.argv (.cp j.source j.mountedDestDir) →
      why.status ≠ 0 →
      CopyFailure [(Call.mkdir j.mountedDestDir).did 0,
        (Call.cp j.source j.mountedDestDir).did why.status] why

/-- The copy into the mounted image succeeds. -/
def copied (k : Int) : List Observation :=
  [(Call.mkdir j.mountedDestDir).did 0, (Call.cp j.source j.mountedDestDir).did 0,
    Call.sync.did k]

/-- What comes after a mount that is active. -/
inductive MountedDecision : List Observation → Except UpdateFault Placement → Prop
  | uncopiedKept {xs : List Observation} {why : CommandFault} {n : Int} :
      j.CopyFailure xs why → n ≠ 0 →
      MountedDecision (xs ++ [(Call.umount j.mountDir).did n])
        (.error (.mountedCopyFailed j.source j.image why))
  | uncopied {xs ys : List Observation} {why : CommandFault} {k : Int} {gone : Bool} :
      j.CopyFailure xs why → j.Inspection ys gone →
      MountedDecision (xs ++ (Call.umount j.mountDir).did 0 :: Call.sync.did k :: ys)
        (.error (.mountedCopyFailed j.source j.image why))
  | kept {k n : Int} : n ≠ 0 →
      MountedDecision (j.copied k ++ [(Call.umount j.mountDir).did n])
        (.error (.unmountFailed j.mountDir j.image))
  | stillMounted {ys : List Observation} {k k' : Int} : j.Inspection ys false →
      MountedDecision
        (j.copied k ++ (Call.umount j.mountDir).did 0 :: Call.sync.did k' :: ys)
        (.error (.mountedAfterUnmount j.mountDir))
  | done {ys : List Observation} {k k' : Int} : j.Inspection ys true →
      MountedDecision
        (j.copied k ++ (Call.umount j.mountDir).did 0 :: Call.sync.did k' :: ys)
        (.ok (j.placement .mounted))

/-- The directories are made inside the image, each with its status. -/
def made (ks : List Int) : List Observation :=
  (Offline.levels j.destDir).zipWith (fun dir k => (Call.mmd j.image dir).did k) ks

/-- What comes after a mount that is not active. -/
inductive OfflineDecision : List Observation → Except UpdateFault Placement → Prop
  | stillMounted {n : Int} {xs : List Observation} : j.Inspection xs false →
      OfflineDecision ((Call.umount j.mountDir).did n :: xs)
        (.error (.mountedBeforeEdit j.mountDir j.image))
  | uncopied {n : Int} {xs : List Observation} {ks : List Int} {why : CommandFault} :
      j.Inspection xs true → ks.length = (Offline.levels j.destDir).length →
      why.argv = j.tools.argv (.mcopy j.image j.source j.destDir) → why.status ≠ 0 →
      OfflineDecision ((Call.umount j.mountDir).did n :: (xs ++ (j.made ks ++
        [(Call.mcopy j.image j.source j.destDir).did why.status])))
        (.error (.offlineCopyFailed j.source j.image why))
  | done {n : Int} {xs : List Observation} {ks : List Int} :
      j.Inspection xs true → ks.length = (Offline.levels j.destDir).length →
      OfflineDecision ((Call.umount j.mountDir).did n :: (xs ++ (j.made ks ++
        [(Call.mcopy j.image j.source j.destDir).did 0])))
        (.ok (j.placement .offline))

/-- The image is not mounted: the scratch directory cannot be made, the mount fails, or nothing is
mounted after it. -/
inductive NoMount (h : Host) : List Observation → Prop
  | refused {why : Host.Refusal} : (h.makeDirectory j.mountDir).1 = .error why → NoMount h []
  | failed {n : Int} : (h.makeDirectory j.mountDir).1 = .ok () → n ≠ 0 →
      NoMount h [(Call.mount j.image j.mountDir).did n]
  | inactive {n : Int} : (h.makeDirectory j.mountDir).1 = .ok () → n ≠ 0 →
      NoMount h [(Call.mount j.image j.mountDir).did 0, (Call.mountpoint j.mountDir).did n]

end Job

/-- What is seen of an update on a host, and its outcome, on the way it takes: none if it ends
before its first command. The tools are those that the settings ask for. -/
inductive Decision (h : Host) (source : Path) (settings : Settings) :
    Option Route → List Observation → Except UpdateFault Placement → Prop
  | sourceMissing : h.isFile source = .ok false →
      Decision h source settings none [] (.error (.sourceMissing source))
  | imageMissing {image : Path} : settings.imagePath = .ok image → h.isFile source = .ok true →
      h.isFile image = .ok false →
      Decision h source settings none [] (.error (.imageMissing image))
  | privilegeUnclear {image : Path} {shown : String} : settings.imagePath = .ok image →
      h.isFile source = .ok true → h.isFile image = .ok true →
      settings.useSudo = .error (.update (.privilegeUnclear shown)) →
      Decision h source settings none [] (.error (.privilegeUnclear shown))
  | mounted {image : Path} {j : Job} {xs : List Observation} {out : Except UpdateFault Placement} :
      settings.imagePath = .ok image → h.isFile source = .ok true → h.isFile image = .ok true →
      settings.job source image none = .ok j →
      (h.makeDirectory j.mountDir).1 = .ok () → j.MountedDecision xs out →
      Decision h source settings (some .mounted) ((Call.mount j.image j.mountDir).did 0 ::
        (Call.mountpoint j.mountDir).did 0 :: xs) out
  | offline {image : Path} {j : Job} {xs ys : List Observation}
      {out : Except UpdateFault Placement} :
      settings.imagePath = .ok image → h.isFile source = .ok true → h.isFile image = .ok true →
      settings.job source image none = .ok j → j.NoMount h xs → j.OfflineDecision ys out →
      Decision h source settings (some .offline) (xs ++ ys) out

/-- The way that an update took, told from what is seen of it. -/
def routeSeen : List Observation → Option Route
  | [] => none
  | .ran _ (some 0) :: .ran _ (some 0) :: _ => some .mounted
  | _ => some .offline

/-- An offline way begins with the look for a mount that was left over. -/
theorem Job.OfflineDecision.head {j : Job} {xs : List Observation}
    {out : Except UpdateFault Placement} (hx : j.OfflineDecision xs out) :
    ∃ n found ys,
      xs = (Call.umount j.mountDir).did n :: .sought j.mountDir found :: ys := by
  cases hx with
  | stillMounted hi | uncopied hi _ _ _ | done hi _ => cases hi <;> exact ⟨_, _, _, rfl⟩

/-- What is seen of a decision tells its way, so that no other way has the same commands. -/
theorem Decision.route_eq {h : Host} {source : Path} {settings : Settings} {route : Option Route}
    {xs : List Observation} {out : Except UpdateFault Placement}
    (hd : Decision h source settings route xs out) : route = routeSeen xs := by
  cases hd with
  | sourceMissing _ | imageMissing _ _ _ | privilegeUnclear _ _ _ _ | mounted _ _ _ _ _ _ => rfl
  | offline _ _ _ _ hm hx =>
    obtain ⟨n, found, ys, rfl⟩ := hx.head
    cases hm with
    | refused _ => simp [routeSeen, Call.did]
    | failed _ hn => simp [routeSeen, Call.did, hn]
    | inactive _ hn => simp [routeSeen, Call.did, hn]

/-! ## What courses show -/

theorem Reply.of_checked_eq_command {argv : List Text} {r : Reply} {why : CommandFault}
    (h : r.checked argv = .error (.command why)) :
    r.verdict = .ok why.status ∧ why.status ≠ 0 ∧ why.argv = argv := by
  rcases r.checked_cases argv with ⟨-, hc⟩ | ⟨why', hv, hn, ha, hc⟩ | ⟨f, hv, hc⟩ <;> rw [h] at hc
  · cases hc
  · cases hc
    exact ⟨hv, hn, ha⟩
  · cases hc
    exact (r.verdict_ne_command why hv).elim

theorem Reply.checked_ne_update (argv : List Text) (r : Reply) (f : UpdateFault) :
    r.checked argv ≠ .error (.update f) := by
  intro h
  rcases r.checked_cases argv with ⟨-, hc⟩ | ⟨why, -, -, -, hc⟩ | ⟨f', hv, hc⟩ <;> rw [h] at hc
  · cases hc
  · cases hc
  · cases hc
    exact r.verdict_ne_update f hv

namespace Job

variable {touch : Host → Host → Prop} {j : Job} {h h' : Host} {acts : List Event}

theorem Removal.inspection {gone : Bool} (hr : j.Removal touch h acts (.ok gone) h') :
    j.Inspection (observations acts) gone := by
  generalize hres : (Except.ok gone : Except Failure Bool) = res at hr
  cases hr with
  | unseen _ | broken _ _ _ | unclear _ _ _ _ _ => cases hres
  | absent _ =>
    cases hres
    exact .absent
  | @mounted r _ _ _ hv =>
    cases hres
    rw [observations_sought, observations_event hv]
    exact .mounted
  | @removed r n b m _ _ hv hn _ =>
    obtain rfl : gone = true := by
      rw [Host.discardBy_plain] at hres
      cases hd : (m.discard j.mountDir).1 <;> rw [hd] at hres <;> cases hres
      rfl
    rw [observations_sought, observations_event hv]
    exact .removed hn

theorem Removal.ne_update {f : UpdateFault} : ¬j.Removal touch h acts (.error (.update f)) h' := by
  intro hr
  generalize hres : (Except.error (.update f) : Except Failure Bool) = res at hr
  cases hr with
  | unseen _ | absent _ | mounted _ _ _ | unclear _ _ _ _ _ => cases hres
  | @broken r _ _ _ _ hv =>
    cases hres
    exact r.verdict_ne_update f hv
  | @removed _ _ _ m _ _ _ _ _ =>
    rw [Host.discardBy_plain] at hres
    cases hd : (m.discard j.mountDir).1 <;> rw [hd] at hres <;> cases hres

/-- A release unmounts the image, and looks for the scratch directory only after that succeeded. -/
theorem Release.observed {strict : Bool} (out : Except UpdateFault Unit)
    (hr : j.Release touch strict h acts (out.mapError .update) h') :
    (∃ n, n ≠ 0 ∧ observations acts = [(Call.umount j.mountDir).did n] ∧
      out = if strict then .error (.unmountFailed j.mountDir j.image) else .ok ()) ∨
    ∃ k ys gone, j.Inspection ys gone ∧
      observations acts = (Call.umount j.mountDir).did 0 :: Call.sync.did k :: ys ∧
        out = if !gone && strict then .error (.mountedAfterUnmount j.mountDir) else .ok () := by
  generalize hres : out.mapError Failure.update = res at hr
  cases hr with
  | @broken r _ _ _ hv | @unsynced _ r _ _ _ _ _ _ hv =>
    rcases out with f | _ <;> cases hres
    exact (r.verdict_ne_update f hv).elim
  | @kept r n _ _ hv hn =>
    refine .inl ⟨n, hn, observations_event hv [], ?_⟩
    cases strict <;> rcases out with f | _ <;> cases hres <;> rfl
  | @freed r r' k acts res' m m' _ _ hv _ hv' hrem =>
    have ho : observations (j.event (.umount j.mountDir) r :: j.event .sync r' :: acts) =
        (Call.umount j.mountDir).did 0 :: Call.sync.did k :: observations acts := by
      rw [observations_event hv, observations_event hv']
    rcases res' with f | gone
    · rcases out with f' | _ <;> cases hres
      exact (hrem.ne_update).elim
    · refine .inr ⟨k, _, gone, hrem.inspection, ho, ?_⟩
      simp only [released] at hres
      split at hres
      · next hg =>
        rcases out with f | _ <;> cases hres
        exact (if_pos hg).symm
      · next hg =>
        rcases out with f | _ <;> cases hres
        exact (if_neg hg).symm

theorem Copying.failure {why : CommandFault}
    (hc : j.Copying touch h acts (.error (.command why)) h') :
    j.CopyFailure (observations acts) why := by
  generalize hres : (Except.error (.command why) : Except Failure Unit) = res at hc
  cases hc with
  | @unmade r _ _ _ hr =>
    cases hres
    obtain ⟨hv, hn, ha⟩ := Reply.of_checked_eq_command hr
    rw [observations_event hv]
    exact .unmade ha hn
  | @uncopied r r' _ _ _ _ hv _ hr' =>
    cases hres
    obtain ⟨hv', hn, ha⟩ := Reply.of_checked_eq_command hr'
    rw [observations_event hv, observations_event hv']
    exact .uncopied ha hn
  | @copied _ _ r _ _ _ _ _ _ _ _ =>
    refine (r.verdict_ne_command why ?_).elim
    exact Reply.ended_eq_error.1 hres.symm

theorem Copying.observed (hc : j.Copying touch h acts (.ok ()) h') :
    ∃ k, observations acts = j.copied k := by
  generalize hres : (Except.ok () : Except Failure Unit) = res at hc
  cases hc with
  | unmade _ _ | uncopied _ _ _ _ => cases hres
  | @copied r r' r'' _ _ _ _ hv _ hv' _ =>
    obtain ⟨k, hk⟩ := Reply.ended_eq_ok.1 hres.symm
    exact ⟨k, by rw [observations_event hv, observations_event hv', observations_event hk]; rfl⟩

theorem Copying.ne_update {f : UpdateFault} : ¬j.Copying touch h acts (.error (.update f)) h' := by
  intro hc
  generalize hres : (Except.error (.update f) : Except Failure Unit) = res at hc
  cases hc with
  | @unmade r _ _ _ hr | @uncopied _ r _ _ _ _ _ _ hr =>
    cases hres
    exact r.checked_ne_update _ f hr
  | @copied _ _ r _ _ _ _ _ _ _ _ => exact r.verdict_ne_update f (Reply.ended_eq_error.1 hres.symm)

/-- A mounted course is one of the listed ones. -/
theorem MountedCourse.decision {out : Except UpdateFault Placement}
    (hm : j.MountedCourse touch h acts (out.mapError .update) h') :
    j.MountedDecision (observations acts) out := by
  generalize hres : out.mapError Failure.update = res at hm
  cases hm with
  | @uncopied xs ys why res' m _ hc hr =>
    rw [observations_append]
    have hfail := hc.failure
    rcases res' with f | _
    · rcases out with f' | _ <;> cases hres
      rcases Release.observed (.error f') hr with ⟨_, -, -, ho⟩ | ⟨_, _, gone, -, -, ho⟩
      · cases ho
      · rw [if_neg (by simp)] at ho
        cases ho
    · rcases out with f' | _ <;> cases hres
      rcases Release.observed (.ok ()) hr with ⟨n, hn, ho, -⟩ | ⟨k, zs, gone, hi, ho, -⟩
      · rw [ho]
        exact .uncopiedKept hfail hn
      · rw [ho]
        exact .uncopied hfail hi
  | broken hc _ =>
    rcases out with f | _ <;> cases hres
    exact (hc.ne_update).elim
  | unreleased hc hr =>
    rcases out with f | _ <;> cases hres
    obtain ⟨k, hk⟩ := hc.observed
    rw [observations_append, hk]
    rcases Release.observed (.error f) hr with ⟨n, hn, ho, hf⟩ | ⟨k', zs, gone, hi, ho, hf⟩
    · cases hf
      rw [ho]
      exact .kept hn
    · rw [ho]
      cases gone <;> cases hf
      exact .stillMounted hi
  | @done xs ys _ _ hc hr =>
    rcases out with _ | p <;> cases hres
    obtain ⟨k, hk⟩ := hc.observed
    have hline : observations [.line "Successfully copied using mount"] = [] := rfl
    rw [observations_append, observations_append, hline, List.append_nil, hk]
    rcases Release.observed (.ok ()) hr with ⟨n, hn, ho, hf⟩ | ⟨k', zs, gone, hi, ho, hf⟩
    · cases hf
    · rw [ho]
      cases gone
      · cases hf
      · exact .done hi

theorem Making.observed {dirs : List Text} (hm : j.Making touch dirs h acts (.ok ()) h') :
    ∃ ks, ks.length = dirs.length ∧
      observations acts = dirs.zipWith (fun dir k => (Call.mmd j.image dir).did k) ks := by
  generalize hres : (Except.ok () : Except Failure Unit) = res at hm
  induction hm with
  | done => exact ⟨[], rfl, rfl⟩
  | broken _ _ => cases hres
  | @next dir dirs r k _ _ _ _ _ _ hv _ ih =>
    obtain ⟨ks, hl, ho⟩ := ih hres
    exact ⟨k :: ks, congrArg Nat.succ hl, by rw [observations_event hv, ho]; rfl⟩

theorem Making.ne_update {dirs : List Text} {f : UpdateFault} :
    ¬j.Making touch dirs h acts (.error (.update f)) h' := by
  intro hm
  generalize hres : (Except.error (.update f) : Except Failure Unit) = res at hm
  induction hm with
  | done => cases hres
  | @broken _ _ r _ _ _ _ hv =>
    cases hres
    exact r.verdict_ne_update f hv
  | next _ _ _ ih => exact ih hres

/-- An offline course is one of the listed ones. -/
theorem OfflineCourse.decision {out : Except UpdateFault Placement}
    (ho : j.OfflineCourse touch h acts (out.mapError .update) h') :
    j.OfflineDecision (observations acts) out := by
  generalize hres : out.mapError Failure.update = res at ho
  cases ho with
  | @broken r _ _ _ hv =>
    rcases out with f | _ <;> cases hres
    exact (r.verdict_ne_update f hv).elim
  | unremoved _ _ hr =>
    rcases out with f | _ <;> cases hres
    exact (hr.ne_update).elim
  | mounted _ hv hr =>
    rcases out with f | _ <;> cases hres
    rw [observations_line, observations_event hv]
    exact .stillMounted hr.inspection
  | unmade _ _ _ hm =>
    rcases out with f | _ <;> cases hres
    exact (hm.ne_update).elim
  | @uncopied _ r' _ _ _ f _ _ _ _ _ hv hr hm _ hc =>
    obtain ⟨ks, hl, hks⟩ := hm.observed
    rw [observations_line, observations_event hv, observations_append, observations_append, hks]
    cases f with
    | command why =>
      rcases out with f' | _ <;> cases hres
      obtain ⟨hv', hn, ha⟩ := Reply.of_checked_eq_command hc
      rw [observations_event hv']
      exact .uncopied hr.inspection hl ha hn
    | update f => exact (r'.checked_ne_update _ f hc).elim
    | _ => rcases out with f' | _ <;> cases hres
  | @done _ r' _ _ _ _ _ _ _ _ hv hr hm _ hv' =>
    rcases out with _ | p <;> cases hres
    obtain ⟨ks, hl, hks⟩ := hm.observed
    rw [observations_line, observations_event hv, observations_append, observations_append, hks,
      observations_event hv']
    exact .done hr.inspection hl

theorem Selection.ne_update {f : UpdateFault} :
    ¬j.Selection touch h acts (.error (.update f)) h' := by
  intro hs
  generalize hres : (Except.error (.update f) : Except Failure Route) = res at hs
  cases hs with
  | unspeakable _ _ | refused _ _ | unmounted _ _ _ _ | inactive _ _ _ _ _ _ | active _ _ _ _ _ =>
    cases hres
  | @broken r _ _ _ _ hv | @unchecked _ r _ _ _ _ _ _ _ hv =>
    cases hres
    exact r.verdict_ne_update f hv

/-- The mounted way is taken after a mount that is active. -/
theorem Selection.active_observed (hs : j.Selection touch h acts (.ok .mounted) h') :
    (h.makeDirectory j.mountDir).1 = .ok () ∧ observations acts =
      [(Call.mount j.image j.mountDir).did 0, (Call.mountpoint j.mountDir).did 0] := by
  generalize hres : (Except.ok .mounted : Except Failure Route) = res at hs
  cases hs with
  | active hm _ hv _ hv' =>
    exact ⟨hm, by rw [observations_making, observations_event hv, observations_event hv']; rfl⟩
  | _ => cases hres

/-- The offline way is taken without one. -/
theorem Selection.noMount (hs : j.Selection touch h acts (.ok .offline) h') :
    j.NoMount h (observations acts) := by
  generalize hres : (Except.ok .offline : Except Failure Route) = res at hs
  cases hs with
  | refused hm _ => exact .refused hm
  | unmounted hm _ hv hn =>
    rw [observations_making, observations_event hv]
    exact .failed hm hn
  | inactive hm _ hv _ hv' hn =>
    rw [observations_making, observations_event hv, observations_event hv']
    exact .inactive hm hn
  | _ => cases hres

theorem NoMount.of_blank {logs : List Nat} {xs : List Observation}
    (hm : j.NoMount (h.blank logs) xs) : j.NoMount h xs := by
  cases hm with
  | refused hd => exact .refused (by rwa [Host.makeDirectory_blank] at hd)
  | failed hd hn => exact .failed (by rwa [Host.makeDirectory_blank] at hd) hn
  | inactive hd hn => exact .inactive (by rwa [Host.makeDirectory_blank] at hd) hn

end Job

section

variable {source image : Path} {settings : Settings} {h h' : Host} {acts : List Event}
  {out : Except UpdateFault Placement}

theorem Settings.useSudo_of_job {f : UpdateFault}
    (hj : settings.job source image none = .error (.update f)) :
    ∃ shown, settings.useSudo = .error (.update (.privilegeUnclear shown)) ∧
      f = .privilegeUnclear shown := by
  unfold Settings.job at hj
  cases hm : settings.mountDir <;> rw [hm] at hj
  · cases hj
  cases hd : settings.destDir <;> rw [hd] at hj
  · cases hj
  simp only [Settings.tools] at hj
  cases hu : settings.useSudo <;> rw [hu] at hj <;> cases hj
  unfold Settings.useSudo Settings.privilegeOf at hu
  split at hu
  · cases hu
  · cases hu
  · cases hu
  · split at hu
    · cases hu
      exact ⟨_, rfl, rfl⟩
    · cases hu

/-- The course of an update is one of the listed ones. -/
theorem Course.decision {touch : Host → Host → Prop}
    (hc : Course touch source settings none h acts (out.mapError .update) h') :
    ∃ route, Decision h source settings route (observations acts) out := by
  generalize hres : out.mapError Failure.update = res at hc
  cases hc with
  | unnamed _ | sourceUnseen _ _ | imageUnseen _ _ _ => rcases out with _ | _ <;> cases hres
  | sourceMissing _ hs =>
    rcases out with _ | _ <;> cases hres
    exact ⟨none, .sourceMissing hs⟩
  | imageMissing hi hs hs' =>
    rcases out with _ | _ <;> cases hres
    exact ⟨none, .imageMissing hi hs hs'⟩
  | unset hi hs hs' hj =>
    rcases out with f | _ <;> cases hres
    obtain ⟨shown, hu, rfl⟩ := Settings.useSudo_of_job hj
    exact ⟨none, .privilegeUnclear hi hs hs' hu⟩
  | unselected _ _ _ _ hsel =>
    rcases out with f | _ <;> cases hres
    exact (hsel.ne_update).elim
  | @selected image j route xs ys _ m _ hi hs hs' hj hsel hr =>
    subst hres
    have ho : observations (greeting source image :: (xs ++ ys)) =
        observations xs ++ observations ys := observations_append xs ys
    rw [ho]
    refine ⟨some route, ?_⟩
    cases route with
    | mounted =>
      obtain ⟨hm, hx⟩ := hsel.active_observed
      rw [hx]
      exact .mounted hi hs hs' hj hm (Job.MountedCourse.decision hr)
    | offline => exact .offline hi hs hs' hj hsel.noMount (Job.OfflineCourse.decision hr)

theorem Decision.of_blank {logs : List Nat} {route : Option Route} {xs : List Observation}
    (hd : Decision (h.blank logs) source settings route xs out) :
    Decision h source settings route xs out := by
  have hfile := Host.isFile_blank logs h
  have hmake := Host.makeDirectory_blank logs h
  cases hd with
  | sourceMissing hs => exact .sourceMissing (hfile _ ▸ hs)
  | imageMissing hi hs hs' => exact .imageMissing hi (hfile _ ▸ hs) (hfile _ ▸ hs')
  | privilegeUnclear hi hs hs' hu =>
    exact .privilegeUnclear hi (hfile _ ▸ hs) (hfile _ ▸ hs') hu
  | mounted hi hs hs' hj hm hx =>
    exact .mounted hi (hfile _ ▸ hs) (hfile _ ▸ hs') hj (by rwa [hmake] at hm) hx
  | offline hi hs hs' hj hm hx =>
    exact .offline hi (hfile _ ▸ hs) (hfile _ ▸ hs') hj hm.of_blank hx

end

/-! ## Updates -/

/-- An update that is not dry, and ends with a result or with a failure of the program's own,
decides as listed: whatever the other programs of the host do, its commands, their statuses and its
outcome are those of a decision, on exactly one of the ways. The looks at the scratch directory are
answers of the host of that moment: what was done has a history, which begins with the host before
and goes along with the programs, the looks and the removals (`History.sought`). -/
theorem update_decision (programs : Programs) (w : World) (source : Path) (settings : Settings)
    (out : Except UpdateFault Placement) (hdry : settings.dryRun = false)
    (hout : (update source settings none programs w).1 = out.mapError .update) :
    let run := update source settings none programs w
    ∃ added, run.2.trace = w.trace ++ added ∧
      History programs.machine w.journal.openLogs (startsOf w.trace) w.host added
        (startsOf run.2.trace) run.2.host ∧
      ∃! route, Decision w.host source settings route (observations added) out := by
  intro run
  let s : Scene := ⟨programs, w.journal.openLogs, fun _ _ => True, fun _ _ _ => trivial⟩
  have hlive : ∀ image j, settings.job source image none = .ok j → j.IsLive :=
    fun _ _ hj => Settings.isLive_of_job hdry (by simp) hj
  obtain ⟨added, ht, -, -, hc⟩ :=
    obeys_update (s := s) (h := w.host.blank w.journal.openLogs) hlive w rfl rfl
  obtain ⟨-, added', ht', hhistory⟩ := hasHistory_update programs w
  rw [List.append_cancel_left (ht'.symm.trans ht)] at hhistory
  refine ⟨added, ht, hhistory, ?_⟩
  have hc' : Course s.touch source settings none _ (actsOf added) (out.mapError .update) _ :=
    hout ▸ hc
  rw [← observations_actsOf]
  obtain ⟨route, hd⟩ := hc'.decision
  exact ⟨route, hd.of_blank, fun _ hd' => hd'.route_eq.trans hd.route_eq.symm⟩

/-- An update whose mount is active at first and gone in the end. -/
theorem update_decision_mountedAtFirst :
    let programs := Script.programs
      [("mountpoint", [⟨[], .exits 0 "" ""⟩, ⟨[], .exits 1 "" ""⟩])] 0
    let w := World.untouched .workbench
    let out := .ok ⟨.mounted, Path.ofString "app.bin", Path.ofString "disk.img", "/sbin/app.bin"⟩
    let run := update (Path.ofString "app.bin") .empty none programs w
    Settings.empty.dryRun = false ∧ run.1 = Except.mapError Failure.update out ∧
      ∃ added, run.2.trace = w.trace ++ added ∧
        History programs.machine w.journal.openLogs (startsOf w.trace) w.host added
          (startsOf run.2.trace) run.2.host ∧
        ∃! route,
          Decision w.host (Path.ofString "app.bin") .empty route (observations added) out := by
  intro programs w out run
  have hout : run.1 = Except.mapError Failure.update out := eq_ok_of_toOption (by decide +kernel)
  exact ⟨rfl, hout, update_decision programs w _ _ out rfl hout⟩

end FatInstall
