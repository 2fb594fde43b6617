import FatInstall.Proofs.Run.Admission

/-!
# Relations that the runs of a job respect

A job is done by runs that are put together from a few kinds of steps. What holds of the steps, and
is respected by putting runs together, holds of the runs; this module goes through the runs of a job
once, for any such relation. It relates the runs of a job with those of the same job with other
tools; a property of one run is the case in which the second run does not matter.

* `Failure.Alike`: failures of one class, whatever names are in them.
* `Job.Congruence`: a relation between runs that the ways to put runs together respect.
* `Congruence.runBy`: each way is gone in related runs.
* `Congruence.carryOut`: so is the whole job, if any failure can come of related runs, and if making
  the scratch directory is related.
-/

namespace FatInstall

/-- Are the failures of one class? The commands and paths that they name may differ. -/
inductive Failure.Alike : Failure → Failure → Prop
  | same (f : Failure) : Alike f f
  | update {f f' : UpdateFault} : f.kind = f'.kind → Alike (.update f) (.update f')
  | command (why why' : CommandFault) : Alike (.command why) (.command why')
  | refused (cause : Host.Cause) (p p' : Text) :
      Alike (.refused (.system cause p)) (.refused (.system cause p'))

theorem Run.discard_eq (p : Path) : Run.discard p =
    (do
      let isDirectory ← Run.look (·.isDirectory p)
      Run.note (.removing p)
      if isDirectory then Run.change (·.removeTree p) else Run.change (·.unlink p)) := by
  have htree : (fun h : Host => h.removeTreeBy (.plain Failure.refused) p) = fun h =>
      ((h.removeTree p).1.mapError .refused, (h.removeTree p).2) :=
    funext fun h => Host.removeTreeBy_plain Failure.refused h p
  have hfile : (fun h : Host => h.unlinkBy (.plain Failure.refused) p) = fun h =>
      ((h.unlink p).1.mapError .refused, (h.unlink p).2) :=
    funext fun h => Host.unlinkBy_plain Failure.refused h p
  unfold Run.discard Run.discardBy
  rw [htree, hfile]
  rfl

namespace Job

/-- The commands of a job. -/
def calls (j : Job) : List Call :=
  [.mount j.image j.mountDir, .mountpoint j.mountDir, .umount j.mountDir, .sync,
    .mkdir j.mountedDestDir, .cp j.source j.mountedDestDir,
    .mcopy j.image j.source j.destDir] ++ (Offline.levels j.destDir).map (.mmd j.image)

/-- The job with other tools. -/
def withTools (j : Job) (t : Tools) : Job := { j with tools := t }

/-- A relation between the runs of a job and those of the job with other tools, which holds of the
single steps and is respected by putting runs together. -/
structure Congruence (j : Job) (t : Tools) where
  Rel : ∀ {α : Type}, Run α → Run α → Prop
  /-- Which failures can come of a related run. -/
  May : Failure → Prop
  may_own : ∀ {f : UpdateFault}, f.kind = .mountedWrite ∨ f.kind = .offlineWrite → May (.update f)
  pure : ∀ {α : Type} (a : α), Rel (pure a) (pure a)
  fail : ∀ {α : Type} {f f' : Failure}, f.Alike f' → May f →
    Rel (Run.fail f : Run α) (Run.fail f')
  bind : ∀ {α β : Type} {r r' : Run α} {k k' : α → Run β}, Rel r r' → (∀ a, Rel (k a) (k' a)) →
    Rel (r >>= k) (r' >>= k')
  attempt : ∀ {α β : Type} {r r' : Run α} {k k' : Except Failure α → Run β}, Rel r r' →
    (∀ a, Rel (k (.ok a)) (k' (.ok a))) →
      (∀ f f', f.Alike f' → May f → Rel (k (.error f)) (k' (.error f'))) →
        Rel (Run.attempt r >>= k) (Run.attempt r' >>= k')
  print : ∀ line : Text, Rel (Run.print line) (Run.print line)
  seek : Rel (Run.seek j.mountDir) (Run.seek j.mountDir)
  discard : Rel (Run.discard j.mountDir) (Run.discard j.mountDir)
  log : ∀ {level : Journal.Level} {channel : Journal.Channel} {m m' : Text}, channel ≠ .command →
    Rel (Run.log level channel m) (Run.log level channel m')
  tool : ∀ {α : Type} {c : Call} {check : Bool} {k k' : Command.Result → Run α}, c ∈ j.calls →
    (∀ x x' : Command.Result, x.ok = x'.ok → Rel (k x) (k' x')) →
      Rel (j.tools.run check (j.tools.argv c) >>= k) (t.run check (t.argv c) >>= k')

namespace Congruence

variable {j : Job} {t : Tools} (C : j.Congruence t)
include C

theorem ite {α : Type} {c : Prop} [Decidable c] {r r' s s' : Run α} (hr : C.Rel r r')
    (hs : C.Rel s s') : C.Rel (if c then r else s) (if c then r' else s') := by
  split
  · exact hr
  · exact hs

theorem log_if {α : Type} {c : Prop} [Decidable c] {level : Journal.Level}
    {channel : Journal.Channel} {m m' : Text} {k k' : Unit → Run α} (hc : channel ≠ .command)
    (hk : C.Rel (k ()) (k' ())) :
    C.Rel (if c then Run.log level channel m >>= k else k ())
      (if c then Run.log level channel m' >>= k' else k' ()) :=
  C.ite (C.bind (C.log hc) fun _ => hk) hk

theorem fail_if {α : Type} {c : Prop} [Decidable c] {f f' : Failure} {k k' : Unit → Run α}
    (hf : f.Alike f') (hm : C.May f) (hk : C.Rel (k ()) (k' ())) :
    C.Rel (if c then Run.fail f >>= k else k ()) (if c then Run.fail f' >>= k' else k' ()) :=
  C.ite (C.bind (C.fail hf hm) fun _ => hk) hk

/-! ## Tools -/

/-- Asking whether a command succeeded. -/
theorem succeeds {c : Call} (hc : c ∈ j.calls) :
    C.Rel (j.tools.run false (j.tools.argv c) >>= fun r => Pure.pure r.ok)
      (t.run false (t.argv c) >>= fun r => Pure.pure r.ok) :=
  C.tool hc fun _ _ hx => hx ▸ C.pure _

theorem mount : C.Rel (j.tools.mount j.image j.mountDir) (t.mount j.image j.mountDir) := by
  refine C.tool (c := .mount j.image j.mountDir) (by simp [calls]) fun x x' hx => ?_
  rw [hx]
  exact C.log_if nofun (C.pure _)

theorem isMountpoint : C.Rel (j.tools.isMountpoint j.mountDir) (t.isMountpoint j.mountDir) :=
  C.succeeds (c := .mountpoint j.mountDir) (by simp [calls])

theorem unmount : C.Rel (j.tools.unmount j.mountDir) (t.unmount j.mountDir) :=
  C.succeeds (c := .umount j.mountDir) (by simp [calls])

theorem sync : C.Rel j.tools.sync t.sync := by
  refine C.tool (c := .sync) (by simp [calls]) fun x x' hx => ?_
  rw [hx]
  split
  · exact C.log nofun
  · exact C.pure _

theorem makeDirectory : C.Rel (j.tools.makeDirectory j.mountedDestDir)
    (t.makeDirectory j.mountedDestDir) :=
  C.tool (c := .mkdir j.mountedDestDir) (by simp [calls]) fun _ _ _ => C.pure _

theorem copyFile : C.Rel (j.tools.copyFile j.source j.mountedDestDir)
    (t.copyFile j.source j.mountedDestDir) :=
  C.tool (c := .cp j.source j.mountedDestDir) (by simp [calls]) fun _ _ _ => C.pure _

theorem makeImageDirectory {dir : Text} (h : dir ∈ Offline.levels j.destDir) :
    C.Rel (j.tools.makeImageDirectory j.image dir) (t.makeImageDirectory j.image dir) :=
  C.succeeds (c := .mmd j.image dir) (List.mem_append_right _ (List.mem_map.2 ⟨dir, h, rfl⟩))

theorem copyIntoImage : C.Rel (j.tools.copyIntoImage j.image j.source j.destDir)
    (t.copyIntoImage j.image j.source j.destDir) :=
  C.tool (c := .mcopy j.image j.source j.destDir) (by simp [calls]) fun _ _ _ => C.pure _

/-! ## The scratch directory -/

theorem removeScratchDir : C.Rel j.removeScratchDir (j.withTools t).removeScratchDir := by
  unfold Job.removeScratchDir Job.removeScratchDirBy
  refine C.ite (C.bind (C.log nofun) fun _ => C.pure _) ?_
  refine C.bind C.seek fun found => C.ite (C.pure _) ?_
  refine C.bind C.isMountpoint fun mounted => ?_
  refine C.ite (C.bind (C.log nofun) fun _ => C.pure _) ?_
  exact C.bind C.discard fun _ => C.pure _

/-! ## The mounted way -/

theorem release (strict : Bool) :
    C.Rel (Mounted.release j strict) (Mounted.release (j.withTools t) strict) := by
  unfold Mounted.release
  refine C.bind C.unmount fun unmounted => ?_
  split
  · refine C.bind C.sync fun _ => C.bind C.removeScratchDir fun gone => ?_
    split
    · exact C.fail (.same _) (C.may_own (.inl rfl))
    · exact C.pure _
  · split
    · exact C.fail (.same _) (C.may_own (.inl rfl))
    · exact C.log nofun

theorem copy : C.Rel (Mounted.copy j) (Mounted.copy (j.withTools t)) :=
  C.bind C.makeDirectory fun _ => C.bind C.copyFile fun _ => C.sync

theorem mounted : C.Rel (Mounted.run j) (Mounted.run (j.withTools t)) := by
  unfold Mounted.run
  refine C.attempt C.copy (fun _ => ?_) fun f f' hf hm => ?_
  · exact C.bind (C.release true) fun _ => C.bind (C.log nofun) fun _ =>
      C.bind (C.print _) fun _ => C.pure _
  · have hcommand (why why' : CommandFault) :
        C.Rel (do Mounted.release j false
                  Run.fail (.update (.mountedCopyFailed j.source j.image why)) : Run Placement)
          (do Mounted.release (j.withTools t) false
              Run.fail (.update (.mountedCopyFailed j.source j.image why'))) :=
      C.bind (C.release false) fun _ => C.fail (.update rfl) (C.may_own (.inl rfl))
    cases hf with
    | same f =>
      cases f with
      | command why => exact hcommand why why
      | _ => exact C.fail (.same _) hm
    | update hk => exact C.fail (.update hk) hm
    | command why why' => exact hcommand why why'
    | refused cause p p' => exact C.fail (.refused cause p p') hm

/-! ## The offline way -/

theorem makeLevels {dirs : List Text} (h : dirs ⊆ Offline.levels j.destDir) :
    C.Rel (Offline.makeLevels j dirs) (Offline.makeLevels (j.withTools t) dirs) := by
  induction dirs with
  | nil => exact C.pure _
  | cons dir dirs ih =>
    unfold Offline.makeLevels
    refine C.bind (C.makeImageDirectory (h List.mem_cons_self)) fun made => ?_
    exact C.log_if (by simp) (ih (List.subset_of_cons_subset h))

theorem offline : C.Rel (Offline.run j) (Offline.run (j.withTools t)) := by
  unfold Offline.run
  refine C.bind (C.print _) fun _ => C.bind C.unmount fun unmounted => ?_
  refine C.log_if nofun (C.bind C.removeScratchDir fun gone => ?_)
  refine C.fail_if (.same _) (C.may_own (.inr rfl)) ?_
  refine C.bind (C.makeLevels (List.Subset.refl _)) fun _ => ?_
  refine C.attempt C.copyIntoImage (fun _ => ?_) fun f f' hf hm => ?_
  · exact C.bind (C.log nofun) fun _ => C.bind (C.print _) fun _ => C.pure _
  · have hcommand (why why' : CommandFault) :
        C.Rel (Run.fail (.update (.offlineCopyFailed j.source j.image why)) : Run Placement)
          (Run.fail (.update (.offlineCopyFailed j.source j.image why'))) :=
      C.fail (.update rfl) (C.may_own (.inr rfl))
    cases hf with
    | same f =>
      cases f with
      | command why => exact hcommand why why
      | _ => exact C.fail (.same _) hm
    | update hk => exact C.fail (.update hk) hm
    | command why why' => exact hcommand why why'
    | refused cause p p' => exact C.fail (.refused cause p p') hm

theorem runBy (route : Route) : C.Rel (j.runBy route) ((j.withTools t).runBy route) :=
  match route with
  | .mounted => C.mounted
  | .offline => C.offline

/-! ## The whole job -/

section

variable (hmake : C.Rel (Run.make j.mountDir) (Run.make j.mountDir)) (hall : ∀ f, C.May f)
include hmake

theorem createScratchDir : C.Rel j.createScratchDir (j.withTools t).createScratchDir :=
  C.ite (C.log nofun) hmake

include hall

theorem probeMount : C.Rel j.probeMount (j.withTools t).probeMount := by
  unfold Job.probeMount
  refine C.attempt (C.createScratchDir hmake) (fun _ => ?_) fun f f' hf hm => ?_
  · refine C.bind C.mount fun mounted => C.fail_if (.same _) (hall _) ?_
    refine C.bind C.isMountpoint fun active => ?_
    split
    · exact C.fail (.same _) (hall _)
    · exact C.pure _
  · have hrefused (why why' : Host.Refusal) (hs : why.isBySystem = why'.isBySystem)
        (hw : (Failure.refused why).Alike (.refused why')) :
        C.Rel (if why.isBySystem then Run.fail (.update (.scratchRefused j.mountDir why))
            else Run.fail (.refused why) : Run Unit)
          (if why'.isBySystem then Run.fail (.update (.scratchRefused j.mountDir why'))
            else Run.fail (.refused why')) := by
      rw [hs]
      split
      · exact C.fail (.update rfl) (hall _)
      · exact C.fail hw (hall _)
    cases hf with
    | same f =>
      cases f with
      | refused why => exact hrefused why why rfl (.same _)
      | _ => exact C.fail (.same _) hm
    | update hk => exact C.fail (.update hk) hm
    | command why why' => exact C.fail (.command why why') hm
    | refused cause p p' =>
      exact hrefused (.system cause p) (.system cause p') rfl (.refused cause p p')

theorem selectRoute : C.Rel j.selectRoute (j.withTools t).selectRoute := by
  unfold Job.selectRoute
  refine C.attempt (C.probeMount hmake hall) (fun _ => C.pure _) fun f f' hf hm => ?_
  have hupdate (fault fault' : UpdateFault) (hk : fault.kind = fault'.kind) :
      C.Rel (if fault.kind = .mountUnavailable then do
            Run.log .info .update ("Falling back to offline FAT editing: " ++ fault.message)
            Pure.pure Route.offline
          else Run.fail (.update fault) : Run Route)
        (if fault'.kind = .mountUnavailable then do
            Run.log .info .update ("Falling back to offline FAT editing: " ++ fault'.message)
            Pure.pure Route.offline
          else Run.fail (.update fault')) := by
    rw [hk]
    split
    · exact C.bind (C.log nofun) fun _ => C.pure _
    · exact C.fail (.update hk) (hall _)
  cases hf with
  | same f =>
    cases f with
    | update fault => exact hupdate fault fault rfl
    | _ => exact C.fail (.same _) hm
  | update hk => exact hupdate _ _ hk
  | command why why' => exact C.fail (.command why why') hm
  | refused cause p p' => exact C.fail (.refused cause p p') hm

theorem carryOut : C.Rel j.carryOut (j.withTools t).carryOut := by
  unfold Job.carryOut
  refine C.bind (C.print _) fun _ => C.bind (C.selectRoute hmake hall) fun route => ?_
  exact C.bind (C.log nofun) fun _ => C.runBy route

end

end Congruence

end Job

end FatInstall
