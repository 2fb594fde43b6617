import FatInstall.Proofs.Run.Rehearsal
import FatInstall.World.Script

/-!
# What a dry run promises

A dry run starts nothing and changes nothing, and what it says is what the run with the same
settings that is not dry does: that one fails at once in the same way, or, when it ends well through
a mount, starts the commands that the dry run wrote down, and at most one check after them.

* `admission_eq_of_agree`: whether an update is admitted, and with what failure it is not, does not
  depend on whether it is dry.
* `Course.mountedCalls`: the commands of an update that ends well through a mount.
* `update_rehearses`: the promise.
-/

namespace FatInstall

/-! ## Settings that differ in one point -/

/-- Do the settings agree in all that an update reads, but for whether it is dry? -/
def Settings.AgreeButDry (s s' : Settings) : Prop :=
  ∀ key ∈ ["image", "mount_dir", "dest_dir", "use_sudo"], s'.get? key = s.get? key

/-- The job that only says what it would do. -/
def Job.asDry (j : Job) : Job := { j with tools := { j.tools with dryRun := true }, dryRun := true }

namespace Settings

variable {s s' : Settings} (h : s.AgreeButDry s')
include h

theorem AgreeButDry.imagePath_eq : s'.imagePath = s.imagePath :=
  imagePath_congr (h "image" (by simp))

theorem AgreeButDry.mountDir_eq : s'.mountDir = s.mountDir :=
  mountDir_congr (h "mount_dir" (by simp))

theorem AgreeButDry.destDir_eq : s'.destDir = s.destDir :=
  destDir_congr (h "dest_dir" (by simp))

theorem AgreeButDry.useSudo_eq : s'.useSudo = s.useSudo :=
  useSudo_congr (h "use_sudo" (by simp))

/-- The dry settings ask for the same job, done dry. -/
theorem AgreeButDry.job_eq (hs : s.dryRun = true) (source image : Path) :
    s.job source image none = (s'.job source image none).map Job.asDry := by
  unfold job tools
  rw [h.mountDir_eq, h.destDir_eq, h.useSudo_eq, hs]
  rcases s.mountDir with v | m
  · rfl
  rcases s.destDir with v | d
  · rfl
  cases s.useSudo <;> rfl

end Settings

variable {s s' : Settings} {source : Path} {h : Host}

/-- The dry settings are admitted exactly if the others are, for the same job done dry. -/
theorem admission_eq_of_agree (hagree : s.AgreeButDry s') (hs : s.dryRun = true) :
    admission h source s none = (admission h source s' none).map Job.asDry := by
  unfold admission
  rw [hagree.imagePath_eq]
  rcases s.imagePath with v | image
  · rfl
  rcases hc : checkInputs h source image with f | _
  · simp [hc, Run.mapError_ok, bind, Except.bind, Except.map]
  · simp [hc, Run.mapError_ok, bind, Except.bind, hagree.job_eq hs]

/-! ## Updates through a mount -/

section

variable {touch : Host → Host → Prop} {settings : Settings} {tools : Option Tools} {j : Job}
  {acts : List Event} {h' : Host} {p : Placement}

theorem Job.Selection.starts_mounted (hs : j.Selection touch h acts (.ok .mounted) h') :
    startsOf acts = [Call.mount j.image j.mountDir, .mountpoint j.mountDir].map j.tools.start := by
  cases hs
  rfl

theorem Job.Copying.starts_ok (hc : j.Copying touch h acts (.ok ()) h') :
    startsOf acts = [Call.mkdir j.mountedDestDir, .cp j.source j.mountedDestDir, .sync].map
      j.tools.start := by
  generalize hres : (Except.ok () : Except Failure Unit) = res at hc
  cases hc with
  | copied => rfl
  | _ => cases hres

/-- After a strict release that ends well there is at most one check of the scratch directory. -/
theorem Job.Release.starts_ok (hr : j.Release touch true h acts (.ok ()) h') :
    ∃ more, (more = [] ∨ more = [Call.mountpoint j.mountDir]) ∧
      startsOf acts = (Call.umount j.mountDir :: .sync :: more).map j.tools.start := by
  generalize hres : (Except.ok () : Except Failure Unit) = res at hr
  cases hr with
  | freed _ _ _ _ hrem =>
    cases hrem with
    | absent => exact ⟨_, .inl rfl, rfl⟩
    | removed => exact ⟨_, .inr rfl, rfl⟩
    | _ => cases hres
  | _ => cases hres

theorem Job.OfflineCourse.route_eq (ho : j.OfflineCourse touch h acts (.ok p) h') :
    p.route = .offline := by
  generalize hres : (Except.ok p : Except Failure Placement) = res at ho
  cases ho with
  | done =>
    cases hres
    rfl
  | _ => cases hres

theorem Job.MountedCourse.starts_ok (hm : j.MountedCourse touch h acts (.ok p) h') :
    ∃ more, (more = [] ∨ more = [Call.mountpoint j.mountDir]) ∧
      startsOf acts = ([Call.mkdir j.mountedDestDir, .cp j.source j.mountedDestDir, .sync,
        .umount j.mountDir, .sync] ++ more).map j.tools.start := by
  generalize hres : (Except.ok p : Except Failure Placement) = res at hm
  cases hm with
  | done hc hr =>
    obtain ⟨more, hmore, hys⟩ := hr.starts_ok
    refine ⟨more, hmore, ?_⟩
    rw [startsOf_append, startsOf_append, hc.starts_ok, hys]
    exact congrArg _ (List.append_nil _)
  | @uncopied _ _ _ res _ _ _ _ => cases res <;> cases hres
  | _ => cases hres

/-- An update that ends well through a mount starts the commands of its job, and at most one check
after them. -/
theorem Course.mountedCalls (hc : Course touch source settings tools h acts (.ok p) h')
    (hp : p.route = .mounted) : ∃ image j more, settings.imagePath = .ok image ∧
      settings.job source image tools = .ok j ∧
        (more = [] ∨ more = [Call.mountpoint j.mountDir]) ∧
          startsOf acts = (j.mountedCalls ++ more).map j.tools.start := by
  cases hc with
  | @selected image j route xs ys _ _ _ hi _ _ hj hs hr =>
    cases route with
    | offline => cases hp.symm.trans hr.route_eq
    | mounted =>
      obtain ⟨more, hmore, hys⟩ := Job.MountedCourse.starts_ok hr
      refine ⟨image, j, more, hi, hj, hmore, ?_⟩
      change startsOf (xs ++ ys) = _
      rw [startsOf_append, hs.starts_mounted, hys]
      rfl

end

/-! ## Dry updates -/

/-- A dry update starts nothing and leaves the host as it was. Either it fails, and then the update
with the same settings that is not dry fails in the same way before it does anything; or it is done
through a mount and writes down a list of commands. Then whenever the update that is not dry is done
through a mount, it starts these commands, and at most one check of the scratch directory after
them. -/
theorem update_rehearses {programs : Programs} {w : World} (hs : s.dryRun = true)
    (hs' : s'.dryRun = false) (hagree : s.AgreeButDry s') :
    let dry := update source s none programs w
    Host.SameButLogs w.journal.openLogs w.host dry.2.host ∧ ∃ added,
      dry.2.trace = w.trace ++ added ∧ startsOf added = [] ∧
        ((∃ f, dry.1 = .error f ∧ ∀ programs' w', w'.host = w.host →
            update source s' none programs' w' = (.error f, w')) ∨
          ∃ image j, s'.imagePath = .ok image ∧ s'.job source image none = .ok j ∧
            dry.1 = .ok (j.placement .mounted) ∧
            ((recordsOf added).filter fun x => x.channel = Journal.Channel.command.name) =
              (if w.journal.accepts .info then j.mountedCalls.map j.tools.record else []) ∧
            ∀ programs' w' p, w'.host = w.host →
              (update source s' none programs' w').1 = .ok p → p.route = .mounted →
              ∃ added' more,
                (update source s' none programs' w').2.trace = w'.trace ++ added' ∧
                (more = [] ∨ more = [Call.mountpoint j.mountDir]) ∧
                startsOf added' = (j.mountedCalls ++ more).map j.tools.start) := by
  intro dry
  have hadmission : admission w.host source s none =
      (admission w.host source s' none).map Job.asDry := admission_eq_of_agree hagree hs
  rcases hadm : admission w.host source s' none with f | j
  · -- both are refused
    have hdry : dry = (.error f, w) := by
      simp only [dry, update_eq_admission, hadmission, hadm, Except.map]
    rw [hdry]
    refine ⟨rfl, [], (List.append_nil _).symm, rfl, .inl ⟨f, rfl, fun programs' w' hw => ?_⟩⟩
    rw [update_eq_admission, hw, hadm]
  · have hdry : dry = j.asDry.carryOut programs w := by
      simp only [dry, update_eq_admission, hadmission, hadm, Except.map]
    obtain ⟨image, hi, -, -, hj⟩ := admission_eq_ok.1 hadm
    obtain ⟨records, hwrites, hcommands⟩ := Job.writes_carryOut (j := j.asDry) ⟨rfl, rfl⟩
    obtain ⟨hres, -, hh, added, ht, hstarts, hrecords⟩ := hwrites programs w
    rw [hdry]
    refine ⟨hh, added, ht, hstarts, .inr ⟨image, j, hi, hj, hres, ?_, ?_⟩⟩
    · rw [hrecords]
      exact Tools.filter_records hcommands
    · intro programs' w' p hw hp hroute
      let scene : Scene := ⟨programs', w'.journal.openLogs, fun _ _ => True, fun _ _ _ => trivial⟩
      have hnone : ∀ t : Tools, none = some t → t.dryRun = false := by simp
      obtain ⟨added', ht', -, -, hc⟩ := obeys_update (s := scene)
        (h := w'.host.blank w'.journal.openLogs)
        (fun _ _ hj' => Settings.isLive_of_job hs' hnone hj') w' rfl rfl
      rw [hp] at hc
      obtain ⟨image', j', more, hi', hj', hmore, hstarts'⟩ := hc.mountedCalls hroute
      cases hi.symm.trans hi'
      cases hj.symm.trans hj'
      rw [startsOf_actsOf] at hstarts'
      exact ⟨added', more, ht', hmore, hstarts'⟩

/-- With the usual settings a dry run tells the words of all commands of an update through a
mount. -/
theorem update_rehearses_usual :
    let w := World.untouched .workbench
    let source := Path.ofString "app.bin"
    let settings (dry : Bool) := Settings.ofEntries [(.text "dry_run", .bool dry)]
    let dry := update source (settings true) none (Script.programs [] 0) w
    let real (programs : Programs) := update source (settings false) none programs w
    let check : List Text := ["mountpoint", "-q", "mnt"]
    let commands : List (List Text) := [["sudo", "mount", "disk.img", "mnt"], check,
      ["sudo", "mkdir", "-p", "mnt/sbin"], ["sudo", "cp", "app.bin", "mnt/sbin/"], ["sync"],
      ["sudo", "umount", "mnt"], ["sync"]]
    (settings true).dryRun = true ∧ (settings false).dryRun = false ∧
      (settings true).AgreeButDry (settings false) ∧ dry.2.host = w.host ∧
      startsOf dry.2.trace = [] ∧
      ∀ programs p, (real programs).1 = .ok p → p.route = .mounted →
        (startsOf (real programs).2.trace).map (·.argv) = commands ∨
          (startsOf (real programs).2.trace).map (·.argv) = commands ++ [check] := by
  intro w source settings dry real check commands
  have hagree : (settings true).AgreeButDry (settings false) := by
    intro key hkey
    simp only [List.mem_cons, List.not_mem_nil, or_false] at hkey
    rcases hkey with rfl | rfl | rfl | rfl <;> rfl
  obtain ⟨hh, added, ht, hstarts, h⟩ := @update_rehearses (settings true) (settings false) source
    (Script.programs [] 0) w rfl rfl hagree
  have htrace : dry.2.trace = added := ht
  refine ⟨rfl, rfl, hagree, Host.sameButLogs_nil.1 hh, htrace ▸ hstarts, ?_⟩
  intro programs p hp hroute
  let j : Job :=
    ⟨source, Path.ofString "disk.img", Path.ofString "mnt", "/sbin", ⟨true, false⟩, false⟩
  have himage : (settings false).imagePath = .ok j.image := eq_ok_of_toOption (by decide +kernel)
  have hjob : (settings false).job source j.image none = .ok j :=
    eq_ok_of_toOption (by decide +kernel)
  have hdry : dry.1.toOption.isSome = true := by decide +kernel
  rcases h with ⟨f, hf, -⟩ | ⟨image, j', hi, hj', -, -, hreal⟩
  · change dry.1 = .error f at hf
    rw [hf] at hdry
    cases hdry
  · cases himage.symm.trans hi
    cases hjob.symm.trans hj'
    obtain ⟨added', more, ht', hmore, hs⟩ := hreal programs w p rfl hp hroute
    have ht' : (real programs).2.trace = added' := ht'
    rw [ht', hs]
    rcases hmore with rfl | rfl
    · left
      decide +kernel
    · right
      decide +kernel

end FatInstall
