import FatInstall.Proofs.Bench
import FatInstall.Proofs.Path.Descent
import FatInstall.Proofs.Run.Leftovers

/-!
# Both ways do the same to an image

On a bench of ideal tools, the mounted way and the offline way have the same effect on the image:
the file is installed, or nothing changes if it cannot be. The exceptions come from the host and not
from the image. The offline way clears the scratch directory before it touches the image, and goes
no further if the host refuses that; the mounted way clears it when the image is done. And an input
that the scratch directory holds is removed with it, on the offline way before it is used.

* `Job.MountedCourse.bench`, `Job.OfflineCourse.bench`: what becomes of the image on each way, and
  the result.
* `mounted_installs`, `offline_installs`: what a run on a bench leaves, on each way.
* `routes_install`: both ways install the file.
-/

namespace FatInstall

/-! ## Parts -/

namespace Job

open Shop

variable {j : Job} {number : Nat} {content : List UInt8} {b b' : Bench} {h h' : Host}
  {acts : List Event}

/-- With nothing mounted the scratch directory is removed, unless the host refuses. -/
theorem Removal.bench {res : Except Failure Bool} (hr : j.Removal Still h acts res h')
    (hp : (j.shop number).Plays j content b acts b') (hb : b.shown = none) :
    res = ((h.clearing j.mountDir).mapError .refused).map (fun _ => true) ∧ b' = b := by
  have hact : ∀ h, (j.shop number).Finds j content h →
      (j.shop number).act b h (Call.mountpoint j.mountDir).words = none := by
    intro h _
    rw [act_mountpoint, mountpoint, hb]
    simp
  cases hr with
  | unseen hd =>
    exact ⟨by simp [Host.clearing, hd, Run.mapError_error, Except.map], hp.eq_of_nil⟩
  | absent hd =>
    exact ⟨by simp [Host.clearing, hd, Run.mapError_ok, Except.map], (hp.skip rfl).eq_of_nil⟩
  | broken _ _ hv | mounted _ _ hv =>
    cases hv.symm.trans ((hp.skip rfl).failed (c := .mountpoint j.mountDir) hact).1
  | unclear hd ht _ _ hdir =>
    cases ht
    refine ⟨by simp [Host.clearing, hd, Host.discard_eq, hdir, Run.mapError_error, Except.map], ?_⟩
    exact ((hp.skip rfl).failed (c := .mountpoint j.mountDir) hact).2.eq_of_nil
  | removed hd ht _ _ _ =>
    cases ht
    refine ⟨by simp [Host.clearing, hd], ?_⟩
    have hp := ((hp.skip rfl).failed (c := .mountpoint j.mountDir) hact).2
    exact (hp.skip rfl).eq_of_nil

/-- A release keeps what is shown as the image, and then removes the scratch directory. -/
theorem Release.bench {strict : Bool} {res : Except Failure Unit} {view : Image}
    (hr : j.Release Still strict h acts res h')
    (hp : (j.shop number).Plays j content b acts b') (hb : b.shown = some view) :
    res = (h.clearing j.mountDir).mapError .refused ∧ b' = ⟨view, none⟩ := by
  have humount : ∀ h, (j.shop number).Finds j content h →
      (j.shop number).act b h (Call.umount j.mountDir).words = some ⟨view, none⟩ := by
    intro h _
    rw [act_umount, umount, hb, shop, if_pos rfl]
    rfl
  cases hr with
  | broken _ hv =>
    cases hv.symm.trans (hp.did humount).1
  | kept _ hv hn =>
    cases hv.symm.trans (hp.did humount).1
    exact (hn rfl).elim
  | unsynced _ _ _ hv =>
    obtain ⟨-, hp⟩ := hp.did humount
    cases hv.symm.trans (hp.did fun _ _ => act_sync).1
  | @freed _ _ _ _ res' _ _ _ ht _ ht' _ hrem =>
    cases ht
    cases ht'
    obtain ⟨-, hp⟩ := hp.did humount
    obtain ⟨-, hp⟩ := hp.did fun _ _ => act_sync
    obtain ⟨hres, hb'⟩ := hrem.bench hp rfl
    refine ⟨?_, hb'⟩
    rw [hres]
    cases h.clearing j.mountDir <;> rfl

section

variable (hm : j.mountDir.IsClean) (hd : Path.parentName ∉ steps j.destDir)
include hm hd

theorem act_mkdir_destDir {view : Image} (hb : b.shown = some view) :
    (j.shop number).act b h (Call.mkdir j.mountedDestDir).words =
      (view.makeAll (steps j.destDir)).map fun K => { b with shown := some K } := by
  simp only [act_mkdir, mkdir, hb, inside_destDir hm hd, bind, Option.bind_some]
  cases view.makeAll (steps j.destDir) <;> rfl

theorem act_cp_destDir {view : Image} (hb : b.shown = some view)
    (hf : (j.shop number).Finds j content h) :
    (j.shop number).act b h (Call.cp j.source j.mountedDestDir).words =
      (view.write (steps j.destDir) (baseName j.source.text) content).map fun K =>
        { b with shown := some K } := by
  simp only [act_cp, cp, hb, inside_destDir_slash hm hd, hf.source, bind, Option.bind_some]
  cases view.write (steps j.destDir) (baseName j.source.text) content <;> rfl

/-- A copy installs the file into what is shown. -/
theorem Copying.bench {res : Except Failure Unit} {view : Image}
    (hc : j.Copying Still h acts res h') (hp : (j.shop number).Plays j content b acts b')
    (hb : b.shown = some view) :
    match view.install (steps j.destDir) (baseName j.source.text) content with
    | some K => res = .ok () ∧ b' = { b with shown := some K }
    | none => (∃ why, res = .error (.command why)) ∧ b' = b := by
  have hmkdir : ∀ h, (j.shop number).Finds j content h →
      (j.shop number).act b h (Call.mkdir j.mountedDestDir).words = _ :=
    fun _ _ => act_mkdir_destDir hm hd hb
  by_cases hf : view.HasFileOn (steps j.destDir)
  · -- the directory cannot be made
    rw [Image.makeAll, if_pos hf, Option.map_none] at hmkdir
    rw [Image.install_eq_none.2 (.inl hf)]
    cases hc with
    | unmade _ hr =>
      obtain ⟨hv, hp⟩ := hp.failed hmkdir
      obtain ⟨why, hcheck⟩ := Reply.command_of_verdict hv (by decide)
      exact ⟨⟨why, hr.symm.trans hcheck⟩, hp.eq_of_nil⟩
    | uncopied _ hv _ _ | copied _ hv _ _ _ => cases hv.symm.trans (hp.failed hmkdir).1
  rw [Image.makeAll, if_neg hf, ← Image.madeSo_of_not hf, Option.map_some] at hmkdir
  have hcp : ∀ h, (j.shop number).Finds j content h →
      (j.shop number).act { b with shown := some (view.madeSo (steps j.destDir)) } h
        (Call.cp j.source j.mountedDestDir).words = _ :=
    fun _ hfinds => act_cp_destDir hm hd rfl hfinds
  rw [Image.write_madeSo] at hcp
  cases hinst : view.install (steps j.destDir) (baseName j.source.text) content with
  | none =>
    rw [hinst, Option.map_none] at hcp
    -- nothing was made either
    have hsame : ({ b with shown := some (view.madeSo (steps j.destDir)) } : Bench) = b := by
      rw [Image.madeSo_of_install hinst, ← hb]
    cases hc with
    | unmade _ hr =>
      cases hr.symm.trans (Reply.checked_of_verdict (hp.did hmkdir).1)
    | uncopied _ _ _ hr =>
      obtain ⟨-, hp⟩ := hp.did hmkdir
      obtain ⟨hv, hp⟩ := hp.failed hcp
      obtain ⟨why, hcheck⟩ := Reply.command_of_verdict hv (by decide)
      exact ⟨⟨why, hr.symm.trans hcheck⟩, hp.eq_of_nil.trans hsame⟩
    | copied _ _ _ hv _ =>
      obtain ⟨-, hp⟩ := hp.did hmkdir
      cases hv.symm.trans (hp.failed hcp).1
  | some K =>
    rw [hinst, Option.map_some] at hcp
    cases hc with
    | unmade _ hr =>
      cases hr.symm.trans (Reply.checked_of_verdict (hp.did hmkdir).1)
    | uncopied _ _ _ hr =>
      obtain ⟨-, hp⟩ := hp.did hmkdir
      cases hr.symm.trans (Reply.checked_of_verdict (hp.did hcp).1)
    | copied _ _ _ _ _ =>
      obtain ⟨-, hp⟩ := hp.did hmkdir
      obtain ⟨-, hp⟩ := hp.did hcp
      obtain ⟨hv, hp⟩ := hp.did fun _ _ => act_sync
      exact ⟨Reply.ended_eq_ok.2 ⟨0, hv⟩, hp.eq_of_nil⟩

theorem Copying.bench_ok {view : Image} (hc : j.Copying Still h acts (.ok ()) h')
    (hp : (j.shop number).Plays j content b acts b') (hb : b.shown = some view) :
    ∃ K, view.install (steps j.destDir) (baseName j.source.text) content = some K ∧
      b' = { b with shown := some K } := by
  have hcopy := hc.bench hm hd hp hb
  cases hinst : view.install (steps j.destDir) (baseName j.source.text) content with
  | some K =>
    rw [hinst] at hcopy
    exact ⟨K, rfl, hcopy.2⟩
  | none =>
    rw [hinst] at hcopy
    obtain ⟨⟨_, he⟩, -⟩ := hcopy
    cases he

theorem Copying.bench_error {f : Failure} {view : Image}
    (hc : j.Copying Still h acts (.error f) h') (hp : (j.shop number).Plays j content b acts b')
    (hb : b.shown = some view) :
    view.install (steps j.destDir) (baseName j.source.text) content = none ∧
      (∃ why, f = .command why) ∧ b' = b := by
  have hcopy := hc.bench hm hd hp hb
  cases hinst : view.install (steps j.destDir) (baseName j.source.text) content with
  | some K =>
    rw [hinst] at hcopy
    cases hcopy.1
  | none =>
    rw [hinst] at hcopy
    obtain ⟨⟨why, he⟩, hb'⟩ := hcopy
    exact ⟨rfl, ⟨why, Except.error.inj he⟩, hb'⟩

/-- The mounted way installs the file, and then clears the scratch directory. -/
theorem MountedCourse.bench {res : Except Failure Placement} {view : Image}
    (hc : j.MountedCourse Still h acts res h') (hp : (j.shop number).Plays j content b acts b')
    (hb : b.shown = some view) :
    match view.install (steps j.destDir) (baseName j.source.text) content with
    | some K => b'.image = K ∧
        res = ((h.clearing j.mountDir).mapError .refused).map fun _ => j.placement .mounted
    | none => b'.image = view ∧ ∃ why,
        res = ((h.clearing j.mountDir).mapError .refused).bind fun _ =>
          .error (.update (.mountedCopyFailed j.source j.image why)) := by
  cases hc with
  | @uncopied _ _ why _ _ _ hc hr =>
    obtain ⟨_, hx, hy⟩ := plays_append hp
    obtain ⟨hinst, -, rfl⟩ := hc.bench_error hm hd hx hb
    cases hc.host
    obtain ⟨hres, rfl⟩ := hr.bench hy hb
    rw [hinst]
    exact ⟨rfl, why, by rw [hres]⟩
  | broken hc hf =>
    obtain ⟨-, ⟨why, rfl⟩, -⟩ := hc.bench_error hm hd hp hb
    exact (hf why rfl).elim
  | unreleased hc hr =>
    obtain ⟨_, hx, hy⟩ := plays_append hp
    obtain ⟨K, hinst, rfl⟩ := hc.bench_ok hm hd hx hb
    cases hc.host
    obtain ⟨hres, rfl⟩ := hr.bench hy rfl
    rw [hinst]
    refine ⟨rfl, ?_⟩
    rw [← hres]
    rfl
  | done hc hr =>
    obtain ⟨_, hx, hy⟩ := plays_append hp
    obtain ⟨_, hy, hz⟩ := plays_append hy
    obtain ⟨K, hinst, rfl⟩ := hc.bench_ok hm hd hx hb
    cases hc.host
    obtain ⟨hres, rfl⟩ := hr.bench hy rfl
    cases (hz.skip rfl).eq_of_nil
    rw [hinst]
    exact ⟨rfl, by rw [← hres]; rfl⟩

end

/-- The steps of the directories on the way to the destination. -/
theorem steps_levels (dir : Text) :
    (Offline.levels dir).map steps = (List.range (Offline.pieces dir).length).map fun i =>
      ((Offline.pieces dir).take (i + 1)).filter Path.isStep := by
  rw [Offline.levels, List.map_map]
  refine List.map_congr_left fun i _ => ?_
  have hpieces : ∀ p ∈ (Offline.pieces dir).take (i + 1), slash ∉ p.points := fun p hp =>
    slash_not_mem_of_mem_slashPieces (List.mem_filter.1 (List.mem_of_mem_take hp)).1
  exact (steps_cons_slash _).trans (steps_intercalate hpieces)

theorem filter_pieces (dir : Text) : (Offline.pieces dir).filter Path.isStep = steps dir := by
  rw [Offline.pieces, steps, List.filter_filter]
  refine List.filter_congr fun t _ => ?_
  cases h : t.isEmpty <;> simp [Path.isStep, h]

/-- The directories on the way to the destination are made, unless a file is in the way. -/
theorem foldl_levels (I : Image) (dir : Text) :
    ((Offline.levels dir).map steps).foldl Image.makeLevel I = I.madeSo (steps dir) := by
  rw [steps_levels, Image.foldl_makeLevel, filter_pieces]

/-- No directory on the way leads up, if the destination does not. -/
theorem not_mem_of_mem_levels {dest dir : Text} (hd : Path.parentName ∉ steps dest)
    (hdir : dir ∈ Offline.levels dest) : Path.parentName ∉ steps dir := by
  have hmem : steps dir ∈ (Offline.levels dest).map steps := List.mem_map_of_mem hdir
  rw [steps_levels] at hmem
  obtain ⟨i, -, hi⟩ := List.mem_map.1 hmem
  rw [← hi, ← filter_pieces] at *
  intro hup
  obtain ⟨htake, hstep⟩ := List.mem_filter.1 hup
  exact hd (List.mem_filter.2 ⟨List.mem_of_mem_take htake, hstep⟩)

theorem act_mmd_level {dir : Text} (hf : (j.shop number).Finds j content h)
    (hdir : Path.parentName ∉ steps dir) :
    (j.shop number).act b h (Call.mmd j.image dir).words =
      (b.image.makeOne (steps dir)).map fun K => { b with image := K } := by
  simp only [act_mmd, mmd, hf.image, driveSteps_drivePath hdir, Bool.not_true, Bool.false_eq_true,
    if_false, bind, Option.bind_some]
  cases b.image.makeOne (steps dir) <;> rfl

/-- A directory on the way is made if it can be, and the command ends in either case. -/
theorem plays_mmd_level {dir : Text} {r : Reply} {rest : List Event}
    (hp : (j.shop number).Plays j content b (j.event (.mmd j.image dir) r :: rest) b')
    (hdir : Path.parentName ∉ steps dir) :
    let made := b.image.makeLevel (steps dir)
    (∃ n, r.verdict = .ok n) ∧
      (j.shop number).Plays j content { b with image := made } rest b' := by
  intro made
  obtain ⟨hv, hp⟩ := hp.ran fun _ hf => act_mmd_level hf hdir
  have hmade : ((b.image.makeOne (steps dir)).map fun K => { b with image := K }).getD b =
      { b with image := made } := by
    simp only [made, Image.makeLevel]
    cases b.image.makeOne (steps dir) <;> rfl
  rw [hmade] at hp
  exact ⟨⟨_, hv⟩, hp⟩

/-- Each directory is made if it can be. -/
theorem Making.bench {dirs : List Text} {res : Except Failure Unit}
    (hc : j.Making Still dirs h acts res h') (hp : (j.shop number).Plays j content b acts b')
    (hdirs : ∀ dir ∈ dirs, Path.parentName ∉ steps dir) :
    res = .ok () ∧
      b' = { b with image := (dirs.map steps).foldl Image.makeLevel b.image } := by
  induction hc generalizing b with
  | done => exact ⟨rfl, hp.eq_of_nil⟩
  | broken _ hv =>
    obtain ⟨⟨n, hn⟩, -⟩ := plays_mmd_level hp (hdirs _ List.mem_cons_self)
    cases hv.symm.trans hn
  | next _ _ _ ih =>
    obtain ⟨hdir, hdirs⟩ := List.forall_mem_cons.1 hdirs
    rw [List.map_cons, List.foldl_cons]
    exact ih (plays_mmd_level hp hdir).2 hdirs

theorem act_umount_unshown (hb : b.shown = none) :
    (j.shop number).act b h (Call.umount j.mountDir).words = none := by
  rw [act_umount, umount, hb]
  simp

section

variable (hd : Path.parentName ∉ steps j.destDir)
include hd

/-- Copying into the image, once the directories are made, installs the file. -/
theorem act_mcopy_madeSo (hf : (j.shop number).Finds j content h) :
    (j.shop number).act { b with image := b.image.madeSo (steps j.destDir) } h
        (Call.mcopy j.image j.source j.destDir).words =
      (b.image.install (steps j.destDir) (baseName j.source.text) content).map fun K =>
        { b with image := K } := by
  simp only [act_mcopy, mcopy, hf.image, hf.source, driveSteps_driveDirectory hd, Bool.not_true,
    Bool.false_eq_true, if_false, bind, Option.bind_some, Image.write_madeSo]
  cases b.image.install (steps j.destDir) (baseName j.source.text) content <;> rfl

/-- What the offline way has done before it copies the file. -/
theorem bench_beforeCopy {r : Reply} {xs ys zs : List Event} {m m' : Host}
    (hr : j.Removal Still h xs (.ok true) m)
    (hc : j.Making Still (Offline.levels j.destDir) m ys (.ok ()) m')
    (hp : (j.shop number).Plays j content b (j.event (.umount j.mountDir) r :: (xs ++ (ys ++ zs)))
      b') (hb : b.shown = none) :
    h.clearing j.mountDir = .ok () ∧ (j.shop number).Plays j content
      { b with image := b.image.madeSo (steps j.destDir) } zs b' := by
  obtain ⟨-, hunmounted⟩ := hp.failed fun _ _ => act_umount_unshown hb
  obtain ⟨m, hx, hrest⟩ := plays_append hunmounted
  obtain ⟨hres, hm⟩ := hr.bench hx hb
  rw [hm] at hrest
  obtain ⟨_, hy, hz⟩ := plays_append hrest
  obtain ⟨-, rfl⟩ := hc.bench hy fun dir hdir => not_mem_of_mem_levels hd hdir
  rw [foldl_levels] at hz
  refine ⟨?_, hz⟩
  cases hclear : h.clearing j.mountDir with
  | ok _ => rfl
  | error why =>
    rw [hclear] at hres
    cases hres

/-- The offline way clears the scratch directory and then, if the host let it, installs the file. -/
theorem OfflineCourse.bench {res : Except Failure Placement}
    (ho : j.OfflineCourse Still h acts res h') (hp : (j.shop number).Plays j content b acts b')
    (hb : b.shown = none) :
    match h.clearing j.mountDir with
    | .error why => b'.image = b.image ∧ res = .error (.refused why)
    | .ok () => match b.image.install (steps j.destDir) (baseName j.source.text) content with
      | some K => b'.image = K ∧ res = .ok (j.placement .offline)
      | none => b'.image = b.image ∧ ∃ why,
          res = .error (.update (.offlineCopyFailed j.source j.image why)) := by
  have humount : ∀ h, (j.shop number).Finds j content h →
      (j.shop number).act b h (Call.umount j.mountDir).words = none :=
    fun _ _ => act_umount_unshown hb
  have hmcopy : ∀ h, (j.shop number).Finds j content h →
      (j.shop number).act { b with image := b.image.madeSo (steps j.destDir) } h
        (Call.mcopy j.image j.source j.destDir).words = _ :=
    fun _ hf => act_mcopy_madeSo hd hf
  cases ho with
  | broken _ hv => cases hv.symm.trans ((hp.skip rfl).failed humount).1
  | unremoved ht _ hr =>
    cases ht
    obtain ⟨-, hp⟩ := (hp.skip rfl).failed humount
    obtain ⟨hres, rfl⟩ := hr.bench hp hb
    cases hc : h.clearing j.mountDir with
    | ok _ =>
      rw [hc] at hres
      cases hres
    | error why =>
      rw [hc] at hres
      cases hres
      exact ⟨rfl, rfl⟩
  | mounted ht _ hr =>
    cases ht
    obtain ⟨-, hp⟩ := (hp.skip rfl).failed humount
    have hres := (hr.bench hp hb).1
    cases hc : h.clearing j.mountDir <;> rw [hc] at hres <;> cases hres
  | unmade ht _ hr hm =>
    cases ht
    obtain ⟨-, hp⟩ := (hp.skip rfl).failed humount
    obtain ⟨_, -, hy⟩ := plays_append hp
    cases (hm.bench hy fun dir hdir => not_mem_of_mem_levels hd hdir).1
  | uncopied ht _ hr hm _ hcheck =>
    cases ht
    obtain ⟨hc, hz⟩ := bench_beforeCopy hd hr hm (hp.skip rfl) hb
    rw [hc]
    dsimp only
    cases hinst : b.image.install (steps j.destDir) (baseName j.source.text) content with
    | some K =>
      rw [hinst] at hmcopy
      cases hcheck.symm.trans (Reply.checked_of_verdict (hz.did hmcopy).1)
    | none =>
      rw [hinst] at hmcopy
      obtain ⟨hv, hz⟩ := hz.failed hmcopy
      obtain ⟨why, hwhy⟩ := Reply.command_of_verdict hv (by decide)
      cases hcheck.symm.trans hwhy
      cases hz.eq_of_nil
      exact ⟨Image.madeSo_of_install hinst, why, rfl⟩
  | done ht _ hr hm _ hv =>
    cases ht
    obtain ⟨hc, hz⟩ := bench_beforeCopy hd hr hm (hp.skip rfl) hb
    rw [hc]
    dsimp only
    cases hinst : b.image.install (steps j.destDir) (baseName j.source.text) content with
    | some K =>
      rw [hinst] at hmcopy
      cases ((hz.did hmcopy).2.skip rfl).eq_of_nil
      exact ⟨rfl, rfl⟩
    | none =>
      rw [hinst] at hmcopy
      cases hv.symm.trans (hz.failed hmcopy).1

end

end Job

/-! ## Both ways -/

/-- The job of a file, an image, a scratch directory and a directory inside the image, read from
texts as the settings read them. -/
def jobOf (source image mountDir dest : Text) (useSudo : Bool) : Job where
  source := Path.ofText source
  image := Path.ofText image
  mountDir := Path.ofText mountDir
  destDir := Settings.rooted dest
  tools := ⟨useSudo, false⟩
  dryRun := false

/-- How a run on a bench ends. -/
structure Shop.Outcome where
  result : Except Failure Placement
  bench : Bench
  world : World

/-- A run on a bench of ideal tools. -/
def onBench (s : Shop) (b : Bench) (r : Run Placement) (w : World) : Shop.Outcome :=
  let done := (startsOf w.trace).length
  let e := r (s.programs b done) w
  ⟨e.1, s.afterAll b e.2.host ((startsOf e.2.trace).drop done), e.2⟩

/-- Does what was done from a bench and a world on lead to the outcome, with the machine of the
shop? -/
def Shop.Leads (s : Shop) (b : Bench) (w : World) (o : Shop.Outcome) : Prop :=
  ∃ added, o.world.trace = w.trace ++ added ∧
    History s.machine w.journal.openLogs b w.host added o.bench o.world.host

/-- The image that is left, if its file is. -/
def Shop.left (s : Shop) (o : Shop.Outcome) : Option Image := s.imageLeft o.bench o.world.host

theorem isClean_jobOf (source image mountDir dest : Text) (useSudo : Bool) :
    (jobOf source image mountDir dest useSudo).IsClean :=
  ⟨Path.isClean_ofText _, Path.isClean_ofText _, Path.isClean_ofText _⟩

theorem baseName_text {p : Path} (hp : p.IsClean) : baseName p.text = p.name := by
  rw [baseName, Path.steps_text hp]
  rfl

/-- A run of a job that finds its inputs, as it is described. -/
theorem onBench_of_obeys {j : Job} {r : Run Placement} {b : Bench} {w : World}
    {content : List UInt8} {number : Nat} {C : Conduct Placement} (hc : j.IsClean)
    (hin : j.HasOwnInputs w.journal.openLogs w.host content number)
    (hr : ∀ s : Scene, s.touch = Still → r.Obeys s (w.host.blank w.journal.openLogs) C)
    (hdoes : r.Does j.Can) (hhistory : ∀ programs, r.HasHistory programs) :
    let o := onBench (j.shop number) b r w
    (j.shop number).Leads b w o ∧ (j.shop number).left o = some o.bench.image ∧
      ∃ acts h', (j.shop number).Plays j content b acts o.bench ∧ C acts o.result h' := by
  intro o
  let programs := (j.shop number).programs b (startsOf w.trace).length
  obtain ⟨added, ht, -, -, hC⟩ := hr (.still programs w.journal.openLogs fun _ _ _ => rfl) rfl w
    rfl rfl
  obtain ⟨more, hmore, hcan⟩ := hdoes programs w
  obtain ⟨-, more', hmore', hwent⟩ := hhistory programs w
  change (r programs w).2.trace = w.trace ++ added at ht
  obtain rfl : more = added := List.append_cancel_left (hmore.symm.trans ht)
  obtain rfl : more' = more := List.append_cancel_left (hmore'.symm.trans ht)
  have hnone : (startsOf w.trace).drop (startsOf w.trace).length = [] := List.drop_length
  obtain ⟨hplayed, hplays, hkept⟩ := Shop.replay hc hin hwent (Nat.le_refl _)
    (by simp [hnone]) hcan hin.keeps
  rw [hnone] at hplayed hplays
  refine ⟨⟨_, ht, hplayed⟩, ?_, _, _, hplays, hC⟩
  have hleft : (j.shop number).isImage o.world.host j.image.text = true :=
    (hkept.toKeepsWay.finds hc hin).image
  exact if_pos hleft

section

variable {j : Job} {content : List UInt8} {number : Nat} {w : World} (hlive : j.IsLive)
  (hc : j.IsClean) (hin : j.HasOwnInputs w.journal.openLogs w.host content number)
  (hup : Path.parentName ∉ steps j.destDir) (I : Image)
include hlive hc hin hup

/-- The mounted way installs the file if it can be, and then clears the scratch directory. -/
theorem mounted_installs :
    let s := j.shop number
    let o := onBench s ⟨I, some I⟩ (Mounted.run j) w
    let installed := I.install (steps j.destDir) j.source.name content
    let cleared := (w.host.clearing j.mountDir).mapError Failure.refused
    s.Leads ⟨I, some I⟩ w o ∧ s.left o = some (installed.getD I) ∧
      match installed with
      | some _ => o.result = cleared.map fun _ => j.placement .mounted
      | none => ∃ why, o.result = cleared.bind fun _ =>
          .error (.update (.mountedCopyFailed j.source j.image why)) := by
  intro s o installed cleared
  have hobeys : ∀ t : Scene, t.touch = Still → (Mounted.run j).Obeys t
      (w.host.blank w.journal.openLogs) (j.MountedCourse Still _) :=
    fun t ht => ht ▸ Job.obeys_mounted hlive
  obtain ⟨hleads, hleft, acts, h', hplays, hcourse⟩ := onBench_of_obeys (b := ⟨I, some I⟩) hc hin
    hobeys (j.doesCongruence fun _ he => he).mounted
    fun programs => (j.historyCongruence programs).mounted
  have hbench := hcourse.bench hc.mountDir hup hplays rfl
  rw [Host.clearing_blank, baseName_text hc.source] at hbench
  cases hinst : installed with
  | some K =>
    change I.install (steps j.destDir) j.source.name content = some K at hinst
    rw [hinst] at hbench
    exact ⟨hleads, hleft.trans (congrArg some hbench.1), hbench.2⟩
  | none =>
    change I.install (steps j.destDir) j.source.name content = none at hinst
    rw [hinst] at hbench
    exact ⟨hleads, hleft.trans (congrArg some hbench.1), hbench.2⟩

/-- The offline way clears the scratch directory and then, if the host let it, installs the file if
it can be. -/
theorem offline_installs :
    let s := j.shop number
    let o := onBench s ⟨I, none⟩ (Offline.run j) w
    let installed := I.install (steps j.destDir) j.source.name content
    s.Leads ⟨I, none⟩ w o ∧
      match w.host.clearing j.mountDir with
      | .error why => s.left o = some I ∧ o.result = .error (.refused why)
      | .ok () => s.left o = some (installed.getD I) ∧
        match installed with
        | some _ => o.result = .ok (j.placement .offline)
        | none => ∃ why, o.result = .error (.update (.offlineCopyFailed j.source j.image why)) := by
  intro s o installed
  have hobeys : ∀ t : Scene, t.touch = Still → (Offline.run j).Obeys t
      (w.host.blank w.journal.openLogs) (j.OfflineCourse Still _) :=
    fun t ht => ht ▸ Job.obeys_offline hlive
  obtain ⟨hleads, hleft, acts, h', hplays, hcourse⟩ := onBench_of_obeys (b := ⟨I, none⟩) hc hin
    hobeys (j.doesCongruence fun _ he => he).offline
    fun programs => (j.historyCongruence programs).offline
  have hbench := hcourse.bench hup hplays rfl
  rw [Host.clearing_blank, baseName_text hc.source] at hbench
  refine ⟨hleads, ?_⟩
  cases hclear : w.host.clearing j.mountDir with
  | error why =>
    rw [hclear] at hbench
    exact ⟨hleft.trans (congrArg some hbench.1), hbench.2⟩
  | ok _ =>
    rw [hclear] at hbench
    cases hinst : installed with
    | some K =>
      change I.install (steps j.destDir) j.source.name content = some K at hinst
      rw [hinst] at hbench
      exact ⟨hleft.trans (congrArg some hbench.1), hbench.2⟩
    | none =>
      change I.install (steps j.destDir) j.source.name content = none at hinst
      rw [hinst] at hbench
      exact ⟨hleft.trans (congrArg some hbench.1), hbench.2⟩

end

/-- Both ways have the same effect on the image: the file is installed and the run succeeds, or, if
a file is on the way to the destination or a directory in its place, the image stays as it was and
the run fails. There are two exceptions. If the host refuses to clear the scratch directory, both
runs end with that, the offline one before it touches the image and the mounted one afterwards. And
an input that the scratch directory holds is not looked at here: it is removed with it. -/
theorem routes_install (source image mountDir dest : Text) (useSudo : Bool)
    (content : List UInt8) (number : Nat) (I : Image) (w : World)
    (hin : (jobOf source image mountDir dest useSudo).HasOwnInputs w.journal.openLogs w.host content
      number) (hdest : Path.parentName ∉ steps dest) :
    let j := jobOf source image mountDir dest useSudo
    let s := j.shop number
    let mounted := onBench s ⟨I, some I⟩ (Mounted.run j) w
    let offline := onBench s ⟨I, none⟩ (Offline.run j) w
    let installed := I.install (steps dest) j.source.name content
    (s.Leads ⟨I, some I⟩ w mounted ∧ s.Leads ⟨I, none⟩ w offline) ∧
    s.left mounted = some (installed.getD I) ∧
    match w.host.clearing j.mountDir with
    | .ok () => s.left offline = some (installed.getD I) ∧
      match installed with
      | some _ => mounted.result = .ok (j.placement .mounted) ∧
          offline.result = .ok (j.placement .offline)
      | none =>
        (∃ why, mounted.result = .error (.update (.mountedCopyFailed j.source j.image why))) ∧
          ∃ why, offline.result = .error (.update (.offlineCopyFailed j.source j.image why))
    | .error why => s.left offline = some I ∧
      mounted.result = .error (.refused why) ∧ offline.result = .error (.refused why) := by
  intro j s mounted offline installed
  have hlive : j.IsLive := ⟨rfl, rfl⟩
  have hc : j.IsClean := isClean_jobOf source image mountDir dest useSudo
  have hd : steps j.destDir = steps dest := steps_rooted dest
  have hup : Path.parentName ∉ steps j.destDir := by rwa [hd]
  obtain ⟨hleads, hleft, hmounted⟩ := mounted_installs hlive hc hin hup I
  obtain ⟨hleads', hoffline⟩ := offline_installs hlive hc hin hup I
  rw [hd] at hleft hmounted hoffline
  refine ⟨⟨hleads, hleads'⟩, hleft, ?_⟩
  cases hclear : w.host.clearing j.mountDir with
  | ok _ =>
    rw [hclear] at hmounted hoffline
    refine ⟨hoffline.1, ?_⟩
    cases hinst : installed with
    | some K =>
      change I.install (steps dest) j.source.name content = some K at hinst
      rw [hinst] at hmounted hoffline
      exact ⟨hmounted, hoffline.2⟩
    | none =>
      change I.install (steps dest) j.source.name content = none at hinst
      rw [hinst] at hmounted hoffline
      exact ⟨hmounted, hoffline.2⟩
  | error why =>
    rw [hclear] at hmounted hoffline
    refine ⟨hoffline.1, ?_, hoffline.2⟩
    cases hinst : installed with
    | some K =>
      change I.install (steps dest) j.source.name content = some K at hinst
      rw [hinst] at hmounted
      exact hmounted
    | none =>
      change I.install (steps dest) j.source.name content = none at hinst
      rw [hinst] at hmounted
      obtain ⟨_, hres⟩ := hmounted
      exact hres

/-- The usual job. -/
def usualJob : Job := jobOf "app.bin" "disk.img" "mnt" "sbin" true

/-- Both ways on an image with nothing in it, and a scratch directory that is not there. -/
theorem routes_install_usual :
    let w := World.untouched .workbench
    let s := usualJob.shop 1
    usualJob.HasOwnInputs w.journal.openLogs w.host [7] 1 ∧ Path.parentName ∉ steps "sbin" ∧
      ∃ K : Image, K.get? ["sbin", "app.bin"] = some (.file [7]) ∧
        s.left (onBench s ⟨.empty, some .empty⟩ (Mounted.run usualJob) w) = some K ∧
        s.left (onBench s ⟨.empty, none⟩ (Offline.run usualJob) w) = some K := by
  intro w s
  have hin : usualJob.HasOwnInputs w.journal.openLogs w.host [7] 1 := {
    source := ⟨0, by decide, by decide, eq_ok_of_toOption (by decide +kernel)⟩
    image := ⟨by decide, [1, 2], eq_ok_of_toOption (by decide +kernel)⟩
    apart := by decide +kernel }
  have hdest : Path.parentName ∉ steps "sbin" := by decide +kernel
  have hclear : w.host.clearing usualJob.mountDir = .ok () := eq_ok_of_toOption (by decide +kernel)
  obtain ⟨K, hinst⟩ : ∃ K, Image.empty.install (steps "sbin")
      (jobOf "app.bin" "disk.img" "mnt" "sbin" true).source.name [7] = some K := by
    refine Option.ne_none_iff_exists'.1 fun hnone => ?_
    rcases Image.install_eq_none.1 hnone with hfile | hdir
    · exact absurd hfile (by decide +kernel)
    · exact absurd hdir (by decide +kernel)
  obtain ⟨-, hmounted, hoffline⟩ :=
    routes_install "app.bin" "disk.img" "mnt" "sbin" true [7] 1 .empty w hin hdest
  change match w.host.clearing usualJob.mountDir with | .ok () => _ | .error why => _ at hoffline
  rw [hclear] at hoffline
  rw [hinst] at hmounted hoffline
  refine ⟨hin, hdest, K, ?_, hmounted, hoffline.1⟩
  rw [Image.get?_install hinst]
  exact if_pos (by decide +kernel)

/-- The ways differ on a host where the scratch directory is a link to a directory, which is not
removed: only the mounted one gets to the image. -/
theorem routes_differ_of_link :
    let w := World.untouched ⟨⟨[(["app.bin"], .file 0 [7]), (["disk.img"], .file 1 [1, 2]),
      (["real"], .directory), (["mnt"], .link "real")], 2⟩, []⟩
    let s := usualJob.shop 1
    let found (o : Shop.Outcome) := (s.left o).map fun K => K.get? ["sbin", "app.bin"]
    found (onBench s ⟨.empty, some .empty⟩ (Mounted.run usualJob) w) = some (some (.file [7])) ∧
      found (onBench s ⟨.empty, none⟩ (Offline.run usualJob) w) = some none := by
  decide +kernel

-- An image that stands in the scratch directory is not left.
example :
    let w := World.untouched ⟨⟨[(["app.bin"], .file 0 [7]), (["mnt"], .directory),
      (["mnt", "disk.img"], .file 1 [1, 2])], 2⟩, []⟩
    let j := jobOf "app.bin" "mnt/disk.img" "mnt" "sbin" true
    ((j.shop 1).left (onBench (j.shop 1) ⟨.empty, none⟩ (Offline.run j) w)).isNone := by
  decide +kernel

end FatInstall
