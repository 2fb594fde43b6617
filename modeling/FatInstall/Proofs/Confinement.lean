import FatInstall.Proofs.Path.Descent
import FatInstall.Proofs.Run.Courses
import FatInstall.Proofs.Run.Starts
import FatInstall.World.Script

/-!
# Where an update writes through a mount

While the image is mounted, an update makes a directory and copies a file with privileges. The
directory is named by the scratch directory with the pieces of the destination after it, which a
`..` among them can lead out of again, onto the host.

* `Start.WritesTo`: a start makes, or copies into, the directory that a text names.
* `Job.CanStart.dir_of_writesTo`: that directory is always the mounted destination.
* `update_staysInside_iff`: a destination stays inside every scratch directory, in every update,
  exactly if its pieces do not ascend.
-/

namespace FatInstall

/-- Does the command make, or copy into, the directory that the text names? -/
def Start.WritesTo (s : Start) (target : Text) : Prop :=
  unprivileged s.argv = (["mkdir", "-p", target] : List Text) ∨
    ∃ source, unprivileged s.argv = (["cp", source, target] : List Text)

/-! ## The directory that is written to -/

theorem Settings.isClean_mountDir {settings : Settings} {d : Path}
    (hd : settings.mountDir = .ok d) : d.IsClean := by
  unfold Settings.mountDir Settings.pathOf at hd
  split at hd
  · cases hd
    exact Path.isClean_ofText _
  · cases hd
  · cases hd

namespace Job

variable {j : Job}

/-- The mounted destination goes on from the scratch directory: the join never leaves it out. -/
theorem mountedDestDir_eq {dest : Text} (hd : j.destDir = Settings.rooted dest) :
    j.mountedDestDir = { j.mountDir with parts := j.mountDir.parts ++ steps dest } := by
  have hparts : (Path.ofText (Text.stripSlashesStart j.destDir)).parts = steps dest := by
    rw [hd, ← steps_rooted dest, ← steps_stripSlashesStart]
    rfl
  have hrelative : (Path.ofText (Text.stripSlashesStart j.destDir)).isAbsolute = false := by
    have hhead := List.head?_dropWhile_not Text.isSlash j.destDir.points
    rw [Path.isAbsolute_ofText]
    change ((List.dropWhile Text.isSlash j.destDir.points).head?.map Text.isSlash).getD false = _
    split at hhead
    · next c hc => simp [hc, hhead]
    · next hc => simp [hc]
  rw [mountedDestDir, Path.join, hrelative, hparts]
  rfl

theorem isClean_mountedDestDir (hm : j.mountDir.IsClean) : j.mountedDestDir.IsClean :=
  hm.join (Path.isClean_ofText _)

/-- What a command of the job writes to is the mounted destination. -/
theorem CanStart.dir_of_writesTo {s : Start} {target : Text} (hs : j.CanStart s)
    (hw : s.WritesTo target) :
    target = j.mountedDestDir.text ∨ target = j.mountedDestDir.text ++ "/" := by
  obtain ⟨c, hc, rfl⟩ := hs
  rw [Start.WritesTo, Tools.start, unprivileged_argv] at hw
  cases c with
  | mkdir dir =>
    obtain rfl : dir = j.mountedDestDir := by simpa [calls] using hc
    left
    simpa +decide [Call.words, eq_comm] using hw
  | cp source dir =>
    obtain ⟨rfl, rfl⟩ : source = j.source ∧ dir = j.mountedDestDir := by simpa [calls] using hc
    right
    simpa +decide [Call.words, eq_comm] using hw
  | _ => simp +decide [Call.words] at hw

/-- Read as a path, what a command of the job writes to goes on from the scratch directory with the
pieces of the destination. -/
theorem CanStart.path_of_writesTo {s : Start} {target dest : Text} (hs : j.CanStart s)
    (hw : s.WritesTo target) (hm : j.mountDir.IsClean) (hd : j.destDir = Settings.rooted dest) :
    (Path.ofText target).isAbsolute = j.mountDir.isAbsolute ∧
      (Path.ofText target).parts = j.mountDir.parts ++ steps dest := by
  have hclean := isClean_mountedDestDir hm
  have hdir := mountedDestDir_eq hd
  have hparts : j.mountedDestDir.parts = j.mountDir.parts ++ steps dest := by rw [hdir]
  have habsolute : j.mountedDestDir.isAbsolute = j.mountDir.isAbsolute := by
    rw [hdir]
    rfl
  rcases hs.dir_of_writesTo hw with rfl | rfl
  · rw [Path.ofText_text hclean]
    exact ⟨habsolute, hparts⟩
  · have hslash : steps (j.mountedDestDir.text ++ ("/" : Text)) = steps j.mountedDestDir.text :=
      steps_append_slash _
    rw [Path.isAbsolute_text_append hclean, habsolute, ← hparts, ← Path.steps_text hclean, ← hslash]
    exact ⟨rfl, rfl⟩

end Job

/-! ## An update that gets to its copy -/

section

variable {touch : Host → Host → Prop} {source image : Path} {settings : Settings}
  {tools : Option Tools} {j : Job} {h h' : Host} {acts : List Event}
  {res : Except Failure Placement}

theorem Job.Copying.mkdir_mem {res : Except Failure Unit} (hc : j.Copying touch h acts res h') :
    j.tools.start (.mkdir j.mountedDestDir) ∈ startsOf acts := by
  cases hc <;> exact .head _

theorem Job.MountedCourse.mkdir_mem (hm : j.MountedCourse touch h acts res h') :
    j.tools.start (.mkdir j.mountedDestDir) ∈ startsOf acts := by
  cases hm with
  | uncopied hc _ | unreleased hc _ | done hc _ =>
    rw [startsOf_append]
    exact List.mem_append_left _ hc.mkdir_mem
  | broken hc _ => exact hc.mkdir_mem

/-- The mounted way is taken when the scratch directory can be made and all commands succeed. -/
theorem Job.Selection.mounted_of_succeed {res : Except Failure Route}
    (hs : j.Selection touch h acts res h') (hm : (h.makeDirectory j.mountDir).1 = .ok ())
    (hall : ∀ st r, .started st r ∈ acts → r.verdict = .ok 0) : res = .ok .mounted := by
  cases hs with
  | unspeakable hm' _ | refused hm' _ => cases hm.symm.trans hm'
  | broken _ _ hv => cases (hall _ _ (.tail _ (.head _))).symm.trans hv
  | unmounted _ _ hv hn =>
    cases (hall _ _ (.tail _ (.head _))).symm.trans hv
    exact (hn rfl).elim
  | unchecked _ _ _ _ hv => cases (hall _ _ (.tail _ (.tail _ (.head _)))).symm.trans hv
  | inactive _ _ _ _ hv hn =>
    cases (hall _ _ (.tail _ (.tail _ (.head _)))).symm.trans hv
    exact (hn rfl).elim
  | active _ _ _ _ _ => rfl

/-- An update of existing inputs that can make its scratch directory, and whose commands all
succeed, makes the mounted destination. -/
theorem Course.mkdir_mem (hi : settings.imagePath = .ok image)
    (hj : settings.job source image tools = .ok j) (hs : h.isFile source = .ok true)
    (hs' : h.isFile image = .ok true) (hm : (h.makeDirectory j.mountDir).1 = .ok ())
    (hc : Course touch source settings tools h acts res h')
    (hall : ∀ st r, .started st r ∈ acts → r.verdict = .ok 0) :
    j.tools.start (.mkdir j.mountedDestDir) ∈ startsOf acts := by
  cases hc with
  | unnamed hi' => cases hi.symm.trans hi'
  | sourceUnseen _ hs₁ | sourceMissing _ hs₁ => cases hs.symm.trans hs₁
  | imageUnseen hi' _ hs₁ | imageMissing hi' _ hs₁ =>
    cases hi.symm.trans hi'
    cases hs'.symm.trans hs₁
  | unset hi' _ _ hj' =>
    cases hi.symm.trans hi'
    cases hj.symm.trans hj'
  | unselected hi' _ _ hj' hsel =>
    cases hi.symm.trans hi'
    cases hj.symm.trans hj'
    cases hsel.mounted_of_succeed hm fun st r hx => hall st r (.tail _ hx)
  | @selected _ _ route xs ys _ _ _ hi' _ _ hj' hsel hr =>
    cases hi.symm.trans hi'
    cases hj.symm.trans hj'
    cases hsel.mounted_of_succeed hm fun st r hx =>
      hall st r (.tail _ (List.mem_append_left _ hx))
    change _ ∈ startsOf (xs ++ ys)
    rw [startsOf_append]
    exact List.mem_append_right _ (Job.MountedCourse.mkdir_mem hr)

end

/-- The programs that all succeed, and touch nothing. -/
def obliging : Programs := fun _ _ h => (.exited 0 "" "", h)

/-- The settings of an update that mounts on the current directory. -/
def Settings.mountingHere (dest : Text) : Settings :=
  .ofEntries [(.text "mount_dir", .text "."), (.text "dest_dir", .text dest)]

namespace Settings

variable {dest : Text}

theorem imagePath_mountingHere : (mountingHere dest).imagePath = .ok (Path.ofString "disk.img") :=
  rfl

theorem mountDir_mountingHere : (mountingHere dest).mountDir = .ok Path.here :=
  rfl

theorem destDir_mountingHere (hd : dest.isEmpty = false) :
    (mountingHere dest).destDir = .ok (rooted dest) := by
  have hget : (mountingHere dest).get? "dest_dir" = some (.text dest) := rfl
  simp [destDir, getOr, hget, Value.isTrue, hd, Value.text?]

end Settings

/-- An update that mounts on the current directory, on a host whose commands all succeed, writes to
where the pieces of the destination lead. -/
theorem update_mountingHere {dest : Text} (hd : dest.isEmpty = false) :
    ∃ s ∈ startsOf (update (Path.ofString "app.bin") (.mountingHere dest) none obliging
      (.untouched .workbench)).2.trace, ∃ target, s.WritesTo target ∧
        (Path.ofText target).parts = steps dest := by
  let j : Job := ⟨Path.ofString "app.bin", Path.ofString "disk.img", Path.here,
    Settings.rooted dest, ⟨true, false⟩, false⟩
  have hm : (Settings.mountingHere dest).mountDir = .ok j.mountDir := Settings.mountDir_mountingHere
  have hj : (Settings.mountingHere dest).job j.source j.image none = .ok j :=
    Settings.job_eq_ok.2 ⟨_, _, _, hm, Settings.destDir_mountingHere hd, rfl, rfl⟩
  have hfiles : ∀ p ∈ [j.source, j.image], Host.workbench.isFile p = .ok true := by
    have h : ∀ p ∈ [Path.ofString "app.bin", Path.ofString "disk.img"],
        (Host.workbench.isFile p).toOption = some true := by decide +kernel
    exact fun p hp => eq_ok_of_toOption (h p hp)
  have hmade : (Host.workbench.makeDirectory Path.here).1 = .ok () :=
    eq_ok_of_toOption (by decide +kernel)
  have hlive : ∀ image j', (Settings.mountingHere dest).job j.source image none = .ok j' →
      j'.IsLive := fun _ _ hj' => Settings.isLive_of_job rfl (by simp) hj'
  obtain ⟨added, ht, -, ha, hc⟩ := obeys_update
    (s := .still obliging [] fun _ _ _ => rfl) (h := Host.workbench) hlive
    (.untouched .workbench) rfl rfl
  have hsucceed : ∀ st r, .started st r ∈ actsOf added → r.verdict = .ok 0 := fun st r hm => by
    rw [(answered_actsOf ha).forall_reply (P := (· = .exited 0 "" "")) (fun _ _ _ => rfl) st r hm]
    rfl
  have hmkdir := hc.mkdir_mem Settings.imagePath_mountingHere hj (hfiles _ (.head _))
    (hfiles _ (.tail _ (.head _))) hmade hsucceed
  have hwrites : (j.tools.start (.mkdir j.mountedDestDir)).WritesTo j.mountedDestDir.text := by
    left
    rw [Tools.start, unprivileged_argv]
    rfl
  have hcan : j.CanStart (j.tools.start (.mkdir j.mountedDestDir)) :=
    ⟨_, by simp [Job.calls], rfl⟩
  refine ⟨_, ?_, j.mountedDestDir.text, hwrites, (hcan.path_of_writesTo hwrites ?_ rfl).2⟩
  · rw [startsOf_actsOf] at hmkdir
    have ht : (update (Path.ofString "app.bin") (.mountingHere dest) none obliging
      (.untouched .workbench)).2.trace = added := ht
    rw [ht]
    exact hmkdir
  · exact Settings.isClean_mountDir hm

/-- An empty destination has no pieces that could ascend. -/
theorem isEmpty_of_ascends {dest : Text} (h : Ascends (steps dest)) : dest.isEmpty = false := by
  obtain ⟨points⟩ := dest
  cases points with
  | nil =>
    obtain ⟨way, hway, hlt⟩ := h
    obtain rfl : way = [] := List.prefix_nil.1 hway
    simp at hlt
  | cons => rfl

/-- In every update, with whatever scratch directory, the directories that are made and copied into
through the mount lie in the scratch directory, exactly if the pieces of the destination lead up
nowhere more often than down. -/
theorem update_staysInside_iff (dest : Text) :
    (∀ programs w source settings tools d, settings.destDir = .ok (Settings.rooted dest) →
      settings.mountDir = .ok d →
        ∃ added, (update source settings tools programs w).2.trace = w.trace ++ added ∧
          ∀ s ∈ startsOf added, ∀ target, s.WritesTo target → d.Holds (Path.ofText target)) ↔
      ¬Ascends (steps dest) := by
  constructor
  · intro h hasc
    have hne : dest.isEmpty = false := isEmpty_of_ascends hasc
    obtain ⟨s, hs, target, hw, hparts⟩ := update_mountingHere hne
    obtain ⟨added, ht, hin⟩ := h obliging (.untouched .workbench) (Path.ofString "app.bin") _ none _
      (Settings.destDir_mountingHere hne) Settings.mountDir_mountingHere
    rw [ht] at hs
    exact not_holds_here (hparts.symm ▸ hasc) (hin s hs target hw)
  · intro h programs w source settings tools d hd hm
    obtain ⟨added, ht, hs⟩ :
        ∃ added, (update source settings tools programs w).2.trace = w.trace ++ added ∧
          ∀ s ∈ startsOf added, ∃ image j, settings.job source image tools = .ok j ∧ j.CanStart s :=
      starts_update programs w
    refine ⟨added, ht, fun s hmem target hw => ?_⟩
    obtain ⟨image, j, hj, hcan⟩ := hs s hmem
    obtain ⟨m, dest', t, hm', hd', -, rfl⟩ := Settings.job_eq_ok.1 hj
    cases hm.symm.trans hm'
    cases hd.symm.trans hd'
    obtain ⟨ha, hp⟩ := hcan.path_of_writesTo hw (Settings.isClean_mountDir hm) rfl
    exact holds_of_not_ascends ha hp h

/-- With the usual scratch directory and a destination that starts with `..`, a directory is made
beside the scratch directory. -/
theorem update_leavesScratchDir :
    let settings := Settings.ofEntries [(.text "dest_dir", .text "../outside")]
    let run := update (Path.ofString "app.bin") settings none obliging (.untouched .workbench)
    settings.mountDir = .ok (Path.ofString "mnt") ∧
      ∃ s ∈ startsOf run.2.trace, s.WritesTo "mnt/../outside" ∧
        ¬(Path.ofString "mnt").Holds (Path.ofText "mnt/../outside") := by
  intro settings run
  refine ⟨eq_ok_of_toOption (by decide +kernel),
    ⟨["sudo", "mkdir", "-p", "mnt/../outside"], none, none, []⟩, by decide +kernel, .inl rfl, ?_⟩
  rintro ⟨-, rest, names, hparts, he, -⟩
  have hmnt : (Path.ofString "mnt").parts = (["mnt"] : List Text) := by decide +kernel
  have hto : (Path.ofText "mnt/../outside").parts = (["mnt", "..", "outside"] : List Text) := by
    decide +kernel
  rw [hto, hmnt, List.singleton_append, List.cons.injEq] at hparts
  rw [← hparts.2, hmnt] at he
  have hlast : some ("outside" : Text) = some "mnt" :=
    (congrArg List.getLast? he).trans List.getLast?_concat
  exact absurd hlast (by decide)

end FatInstall
