import FatInstall.Proofs.Host.Apart
import FatInstall.Proofs.Image
import FatInstall.Proofs.Path.Descent
import FatInstall.Proofs.Run.History
import FatInstall.Proofs.Run.Starts

/-!
# Tools that do what they are for

Programs that work on one image, as the update takes its tools to work: `mount` shows the image in
the scratch directory and `umount` keeps what became of it there, the commands of the host work on
what is shown, and the commands for images on the image itself. A command that cannot do its work
fails and changes nothing. Paths are read as steps. The files are looked for on the host of the
moment, so that what was removed is not found, and an image that is shown hides what the scratch
directory holds.

* `Bench`: the image, and the image that is shown in the scratch directory.
* `Shop.act`: what a command does.
* `Shop.machine`: the commands, with the bench as the state that they keep.
* `Shop.programs`: the programs of a host on which these commands are there, and nothing else
  happens.
* `Job.HasOwnInputs`: a job that finds its inputs, apart from its scratch directory.
* `Shop.Plays`: a trace in which the commands are answered so, and find the inputs.
* `Shop.replay`: a run of a job that finds its inputs is one of the machine, and such a trace.
-/

namespace FatInstall

/-- An image, and the image that is shown in the scratch directory. -/
structure Bench where
  image : Image
  shown : Option Image

/-- What the commands work on. -/
structure Shop where
  /-- The path of the image. -/
  image : Path
  /-- The number of the image file. -/
  number : Nat
  /-- The path of the scratch directory. -/
  mountDir : Path

/-- The name of the file that a path leads to. -/
def baseName (path : Text) : Text := (steps path).getLast?.getD .empty

/-- The steps of a path inside an image, if none of them leads up. -/
def inImage (xs : List Text) : Option (List Text) := if Path.parentName ∈ xs then none else some xs

/-- The steps of a path inside an image, which begins with the name of the drive. -/
def driveSteps (path : Text) : Option (List Text) :=
  match path.points with
  | .char ':' :: .char ':' :: rest => inImage (steps ⟨rest⟩)
  | _ => none

namespace Shop

variable (s : Shop) (b : Bench) (h : Host)

/-- The steps of a path inside what is shown in the scratch directory. -/
def inside (path : Text) : Option (List Text) :=
  let top := steps s.mountDir.text
  if top <+: steps path then inImage ((steps path).drop top.length) else none

/-! ## Files of the host -/

/-- The host as the commands see it. An image that is shown hides what the scratch directory
holds. -/
def seen : Host :=
  match b.shown, h.locate true s.mountDir with
  | some _, .ok place => h.emptied place
  | _, _ => h

/-- Does the path lead to the image file? -/
def isImage (path : Text) : Bool :=
  match h.node true (Path.ofText path) with
  | .ok (.file number _) => number = s.number
  | _ => false

/-- The content of the file that a path leads to. The image is none that could be copied. -/
def content? (path : Text) : Option (List UInt8) :=
  match h.node true (Path.ofText path) with
  | .ok (.file number content) => if number = s.number then none else some content
  | _ => none

/-- The image, if it is still there. -/
def imageLeft : Option Image := if s.isImage h s.image.text then some b.image else none

/-! ## Commands -/

def mount (image dir : Text) : Option Bench :=
  if s.isImage h image ∧ steps dir = steps s.mountDir.text ∧ b.shown.isNone then
    some { b with shown := some b.image }
  else none

def umount (dir : Text) : Option Bench :=
  if steps dir = steps s.mountDir.text then b.shown.map fun view => ⟨view, none⟩ else none

def mountpoint (dir : Text) : Option Bench :=
  if steps dir = steps s.mountDir.text ∧ b.shown.isSome then some b else none

def mkdir (dir : Text) : Option Bench := do
  let view ← b.shown
  let view ← view.makeAll (← s.inside dir)
  return { b with shown := some view }

def cp (source dir : Text) : Option Bench := do
  let view ← b.shown
  let view ← view.write (← s.inside dir) (baseName source) (← s.content? h source)
  return { b with shown := some view }

def mmd (image dir : Text) : Option Bench := do
  if !s.isImage h image then none
  let image ← b.image.makeOne (← driveSteps dir)
  return { b with image }

def mcopy (image source dir : Text) : Option Bench := do
  if !s.isImage h image then none
  let image ← b.image.write (← driveSteps dir) (baseName source) (← s.content? h source)
  return { b with image }

/-- What becomes of a bench by a command, if the command succeeds on the host that it sees. -/
def act : List Text → Option Bench
  | [c] => if c = "sync" then some b else none
  | [c, dir] => if c = "umount" then s.umount b dir else none
  | [c, x, y] =>
    if c = "mount" then s.mount b h x y
    else if c = "mountpoint" ∧ x = "-q" then s.mountpoint b y
    else if c = "mkdir" ∧ x = "-p" then s.mkdir b y
    else if c = "cp" then s.cp b h x y
    else none
  | [c, x, image, dir] => if c = "mmd" ∧ x = "-i" then s.mmd b h image dir else none
  | [c, x, image, y, source, dir] =>
    if c = "mcopy" ∧ x = "-i" ∧ y = "-o" then s.mcopy b h image source dir else none
  | _ => none

/-- The bench after a command that was started on a host, through `sudo` or not. -/
def after (argv : List Text) : Bench := (s.act b (s.seen b h) (unprivileged argv)).getD b

/-- The exit status of a command. -/
def status (argv : List Text) : Int :=
  if (s.act b (s.seen b h) (unprivileged argv)).isSome then 0 else 1

/-- The commands as they are started one after the other. They change nothing on the host but the
image. -/
def machine : Machine Bench := fun b st h =>
  (.exited (s.status b h st.argv) "" "", s.after b h st.argv, h)

/-- The bench after commands that were started on a host. -/
def afterAll (starts : List Start) : Bench := starts.foldl (fun b st => s.after b h st.argv) b

/-- The programs that find the given bench after the given number of starts. What they did since
then they tell from the host that they find now; for a job that finds its inputs this is what the
machine does (`Shop.replay`). -/
def programs (done : Nat) : Programs := fun earlier st h =>
  (.exited (s.status (s.afterAll b h (earlier.drop done)) h st.argv) "" "", h)

/-! ## What the commands of the tools do -/

variable {s b h}

theorem act_mount (image dir : Path) :
    s.act b h (Call.mount image dir).words = s.mount b h image.text dir.text := by
  rw [Call.words, act]
  exact if_pos rfl

theorem act_umount (dir : Path) : s.act b h (Call.umount dir).words = s.umount b dir.text := by
  rw [Call.words, act]
  exact if_pos rfl

theorem act_mountpoint (dir : Path) :
    s.act b h (Call.mountpoint dir).words = s.mountpoint b dir.text := by
  rw [Call.words, act, if_neg (by decide)]
  exact if_pos ⟨rfl, rfl⟩

theorem act_sync : s.act b h Call.sync.words = some b := by
  rw [Call.words, act]
  exact if_pos rfl

theorem act_mkdir (dir : Path) : s.act b h (Call.mkdir dir).words = s.mkdir b dir.text := by
  have hpoint : ¬("mkdir" : Text) = "mountpoint" := by decide
  rw [Call.words, act, if_neg (by decide), if_neg (hpoint ∘ And.left)]
  exact if_pos ⟨rfl, rfl⟩

theorem act_cp (source dir : Path) :
    s.act b h (Call.cp source dir).words = s.cp b h source.text (dir.text ++ "/") := by
  have hpoint : ¬("cp" : Text) = "mountpoint" := by decide
  have hmkdir : ¬("cp" : Text) = "mkdir" := by decide
  rw [Call.words, act, if_neg (by decide), if_neg (hpoint ∘ And.left), if_neg (hmkdir ∘ And.left)]
  exact if_pos rfl

theorem act_mmd (image : Path) (dir : Text) :
    s.act b h (Call.mmd image dir).words = s.mmd b h image.text (drivePath dir) := by
  rw [Call.words, act]
  exact if_pos ⟨rfl, rfl⟩

theorem act_mcopy (image source : Path) (dir : Text) :
    s.act b h (Call.mcopy image source dir).words =
      s.mcopy b h image.text source.text (driveDirectory dir) := by
  rw [Call.words, act]
  exact if_pos ⟨rfl, rfl, rfl⟩

theorem afterAll_nil : s.afterAll b h [] = b := rfl

theorem afterAll_cons (st : Start) (starts : List Start) :
    s.afterAll b h (st :: starts) = s.afterAll (s.after b h st.argv) h starts := rfl

theorem inImage_of_not_mem {xs : List Text} (hx : Path.parentName ∉ xs) :
    inImage xs = some xs := if_neg hx

theorem driveSteps_drivePath {dir : Text} (hd : Path.parentName ∉ steps dir) :
    driveSteps (drivePath dir) = some (steps dir) :=
  (congrArg inImage ((steps_cons_slash _).trans (steps_stripSlashes dir))).trans
    (inImage_of_not_mem hd)

theorem driveSteps_driveDirectory {dir : Text} (hd : Path.parentName ∉ steps dir) :
    driveSteps (driveDirectory dir) = some (steps dir) := by
  have hcolon : Text.isSlash (.char ':') = false := rfl
  have he : (driveDirectory dir).points = .char ':' :: .char ':' ::
      (Text.trimEnd Text.isSlash (slash :: dir.stripSlashes.points) ++ [slash]) := by
    change Text.trimEnd Text.isSlash
      (.char ':' :: .char ':' :: slash :: dir.stripSlashes.points) ++ [slash] = _
    rw [trimEnd_cons hcolon, trimEnd_cons hcolon]
    rfl
  have hsteps : steps ⟨Text.trimEnd Text.isSlash (slash :: dir.stripSlashes.points) ++ [slash]⟩ =
      steps dir := by
    rw [steps_append_slash, steps_trimEnd, steps_cons_slash]
    exact steps_stripSlashes dir
  rw [driveSteps, he]
  exact (congrArg inImage hsteps).trans (inImage_of_not_mem hd)

end Shop

/-! ## Jobs of a shop -/

/-- The ideal tools for a job, whose image is the file of the given number. -/
def Job.shop (j : Job) (number : Nat) : Shop := ⟨j.image, number, j.mountDir⟩

/-- Does the job find its inputs on the host: a file with the given content, and the image file of
the given number? They are two files, neither is an open log, and nothing on the way to them is
what the path of the scratch directory leads to, or is in there. -/
structure Job.HasOwnInputs (j : Job) (logs : List Nat) (h : Host) (content : List UInt8)
    (number : Nat) : Prop where
  source : ∃ n, n ≠ number ∧ n ∉ logs ∧ h.node true j.source = .ok (.file n content)
  image : number ∉ logs ∧ ∃ stored, h.node true j.image = .ok (.file number stored)
  apart : h.IsApart j.mountDir (h.way j.source ++ h.way j.image)

/-- Were the paths of the job read from texts? -/
structure Job.IsClean (j : Job) : Prop where
  source : j.source.IsClean
  image : j.image.IsClean
  mountDir : j.mountDir.IsClean

/-- The steps of the destination in the mounted image. -/
theorem Job.steps_mountedDestDir {j : Job} (hm : j.mountDir.IsClean) :
    steps j.mountedDestDir.text = steps j.mountDir.text ++ steps j.destDir := by
  have hrel : (Path.ofText j.destDir.stripSlashesStart).isAbsolute = false := by
    have hnone : j.destDir.stripSlashesStart.points.takeWhile Text.isSlash = [] := by
      rw [Text.stripSlashesStart]
      cases hd : j.destDir.points.dropWhile Text.isSlash with
      | nil => rfl
      | cons x xs =>
        have hx := List.head_dropWhile_not (p := Text.isSlash) (l := j.destDir.points)
          (by simp [hd])
        simp only [hd, List.head_cons] at hx
        simp [hx]
    simp [Path.isAbsolute, Path.ofText, hnone, Path.anchorOfSlashes]
  have hjoin : j.mountedDestDir.parts = j.mountDir.parts ++ steps j.destDir := by
    rw [Job.mountedDestDir, Path.join, hrel, ← steps_stripSlashesStart]
    rfl
  have hclean : j.mountedDestDir.IsClean := hm.join (Path.isClean_ofText _)
  rw [Path.steps_text hclean, hjoin, Path.steps_text hm]

namespace Shop

variable {j : Job} {number : Nat}

theorem inside_destDir (hm : j.mountDir.IsClean) (hd : Path.parentName ∉ steps j.destDir) :
    (j.shop number).inside j.mountedDestDir.text = some (steps j.destDir) := by
  simp only [inside, Job.shop, Job.steps_mountedDestDir hm, List.prefix_append, if_true,
    List.drop_left, inImage_of_not_mem hd]

theorem inside_destDir_slash (hm : j.mountDir.IsClean) (hd : Path.parentName ∉ steps j.destDir) :
    (j.shop number).inside (j.mountedDestDir.text ++ "/") = some (steps j.destDir) := by
  have he : steps (j.mountedDestDir.text ++ "/") = steps j.mountedDestDir.text :=
    steps_append_slash _
  rw [inside, he]
  exact inside_destDir hm hd

/-! ## Hosts on which the inputs are found -/

/-- Do the commands find the inputs of the job on the host that they see? -/
structure Finds (s : Shop) (j : Job) (content : List UInt8) (h : Host) : Prop where
  source : s.content? h j.source.text = some content
  image : s.isImage h j.image.text = true

end Shop

namespace Job

variable {j : Job} {logs : List Nat} {h₀ h h' : Host} {content : List UInt8} {number : Nat}

/-- Is everything on the way to the inputs as it was on an earlier host, apart from logs? -/
structure KeepsWay (j : Job) (logs : List Nat) (h₀ h : Host) : Prop where
  here : h.here = h₀.here
  get? : ∀ q ∈ h₀.way j.source ++ h₀.way j.image,
    (h.tree.get? q).map (Host.Node.blank logs) = (h₀.tree.get? q).map (Host.Node.blank logs)

/-- A file that is no log is found by its way. -/
theorem node_of_keepsWay {p : Path} {n : Nat} (hk : j.KeepsWay logs h₀ h)
    (hp : ∀ q ∈ h₀.way p, q ∈ h₀.way j.source ++ h₀.way j.image) (hn : n ∉ logs)
    (hf : h₀.node true p = .ok (.file n content)) : h.node true p = .ok (.file n content) := by
  have hblank : ∀ stored, Host.Node.blank logs (.file n stored) = .file n stored := fun stored =>
    congrArg (Host.Node.file n) (if_neg hn)
  have hf' : (h₀.blank logs).node true p = .ok (.file n content) := by
    rw [Host.node_blank, hf]
    exact congrArg Except.ok (hblank content)
  have hhere : (h.blank logs).here = (h₀.blank logs).here := hk.here
  have hfound : (h.blank logs).node true p = .ok (.file n content) := by
    refine Host.node_of_way hhere hf' (by simp) fun q hq => ?_
    rw [Host.way_blank] at hq
    simpa [Host.blank_tree, Host.Tree.get?_blank] using hk.get? q (hp q hq)
  rw [Host.node_blank] at hfound
  cases hm : h.node true p with
  | error c =>
    rw [hm] at hfound
    cases hfound
  | ok m =>
    rw [hm] at hfound
    have hfile : Host.Node.blank logs m = .file n content := Except.ok.inj hfound
    cases m with
    | file k stored =>
      obtain rfl : k = n := (Host.Node.file.inj hfile).1
      rw [← hfile, hblank]
    | directory | link _ | device => cases hfile

theorem KeepsWay.finds (hk : j.KeepsWay logs h₀ h) (hc : j.IsClean)
    (hin : j.HasOwnInputs logs h₀ content number) : (j.shop number).Finds j content h := by
  obtain ⟨n, hne, hn, hsource⟩ := hin.source
  obtain ⟨hn', stored, himage⟩ := hin.image
  have hsource := node_of_keepsWay hk (fun q hq => List.mem_append_left _ hq) hn hsource
  have himage := node_of_keepsWay hk (fun q hq => List.mem_append_right _ hq) hn' himage
  constructor
  · simp [Shop.content?, Path.ofText_text hc.source, hsource, shop, hne]
  · simp [Shop.isImage, Path.ofText_text hc.image, himage, shop]

/-- Is moreover everything on that way apart from the scratch directory? -/
structure Keeps (j : Job) (logs : List Nat) (h₀ h : Host) : Prop extends KeepsWay j logs h₀ h where
  apart : h.IsApart j.mountDir (h₀.way j.source ++ h₀.way j.image)

theorem HasOwnInputs.keeps (hin : j.HasOwnInputs logs h content number) : j.Keeps logs h h :=
  ⟨⟨rfl, fun _ _ => rfl⟩, hin.apart⟩

theorem Keeps.sameButLogs (hk : j.Keeps logs h₀ h) (hs : Host.SameButLogs logs h h') :
    j.Keeps logs h₀ h' := by
  have hs : h'.blank logs = h.blank logs := hs
  have hhere : (h'.blank logs).here = (h.blank logs).here := congrArg Host.here hs
  refine ⟨⟨hhere.trans hk.here, fun q hq => ?_⟩, fun q hq hw => hk.apart q hq ?_⟩
  · rw [← hk.get? q hq, ← Host.Tree.get?_blank, ← Host.Tree.get?_blank]
    exact congrArg (fun h : Host => h.tree.get? q) hs
  · rwa [← Host.isWithin_blank logs, ← hs, Host.isWithin_blank]

theorem Keeps.discard (hk : j.Keeps logs h₀ h) : j.Keeps logs h₀ (h.discard j.mountDir).2 :=
  ⟨⟨(Host.shrinks_discard h j.mountDir).here.trans hk.here, fun q hq => by
    rw [hk.apart.get?_discard hq, hk.get? q hq]⟩, hk.apart.discard⟩

/-- What an image hides that is shown in the scratch directory is not on the way. -/
theorem Keeps.seen (hk : j.Keeps logs h₀ h) (b : Bench) :
    j.KeepsWay logs h₀ ((j.shop number).seen b h) := by
  unfold Shop.seen
  split
  · next place _ hl =>
    refine ⟨hk.here, fun q hq => ?_⟩
    have hout : ¬place <+: q := fun hle => hk.apart q hq ⟨true, place, hl, hle⟩
    rw [Host.get?_emptied h hout, hk.get? q hq]
  · exact hk.toKeepsWay

theorem Keeps.finds (hk : j.Keeps logs h₀ h) (hc : j.IsClean)
    (hin : j.HasOwnInputs logs h₀ content number) (b : Bench) :
    (j.shop number).Finds j content ((j.shop number).seen b h) :=
  (hk.seen b).finds hc hin

end Job

/-! ## Traces -/

namespace Shop

variable {s : Shop} {j : Job} {content : List UInt8} {b b' b₀ : Bench} {h h' : Host}

/-- Are the commands of the trace answered as on the bench, on hosts on which the inputs of the job
are found, and is the second bench left? -/
inductive Plays (s : Shop) (j : Job) (content : List UInt8) : Bench → List Event → Bench → Prop
  | nil {b : Bench} : Plays s j content b [] b
  | started {b b' : Bench} {h : Host} {st : Start} {rest : List Event} :
      s.Finds j content (s.seen b h) → Plays s j content (s.after b h st.argv) rest b' →
      Plays s j content b (.started st (.exited (s.status b h st.argv) "" "") :: rest) b'
  | other {b b' : Bench} {e : Event} {rest : List Event} : e.start? = none →
      Plays s j content b rest b' → Plays s j content b (e :: rest) b'

theorem plays_append {xs ys : List Event} (hp : s.Plays j content b (xs ++ ys) b') :
    ∃ m, s.Plays j content b xs m ∧ s.Plays j content m ys b' := by
  induction xs generalizing b with
  | nil => exact ⟨b, .nil, hp⟩
  | cons e xs ih =>
    cases hp with
    | started hf hp =>
      obtain ⟨m, hx, hy⟩ := ih hp
      exact ⟨m, .started hf hx, hy⟩
    | other he hp =>
      obtain ⟨m, hx, hy⟩ := ih hp
      exact ⟨m, .other he hx, hy⟩

theorem Plays.eq_of_nil (hp : s.Plays j content b [] b') : b' = b := by
  cases hp
  rfl

/-- What is no start makes no difference. -/
theorem Plays.skip {e : Event} {xs : List Event} (hp : s.Plays j content b (e :: xs) b')
    (he : e.start? = none) : s.Plays j content b xs b' := by
  cases hp with
  | started _ _ => cases he
  | other _ hp => exact hp

/-- A command does its work if it can, and says whether it did. It can on all hosts on which the
inputs are found, or on none. -/
theorem Plays.ran {c : Call} {r : Reply} {xs : List Event} {m : Option Bench}
    (hp : s.Plays j content b (j.event c r :: xs) b')
    (ha : ∀ h, s.Finds j content h → s.act b h c.words = m) :
    r.verdict = .ok (if m.isSome then 0 else 1) ∧ s.Plays j content (m.getD b) xs b' := by
  cases hp with
  | started hf hp =>
    simp only [Tools.start, after, status, unprivileged_argv, ha _ hf] at hp ⊢
    exact ⟨rfl, hp⟩
  | other he _ => cases he

theorem Plays.did {c : Call} {r : Reply} {xs : List Event} {m : Bench}
    (hp : s.Plays j content b (j.event c r :: xs) b')
    (ha : ∀ h, s.Finds j content h → s.act b h c.words = some m) :
    r.verdict = .ok 0 ∧ s.Plays j content m xs b' :=
  hp.ran ha

theorem Plays.failed {c : Call} {r : Reply} {xs : List Event}
    (hp : s.Plays j content b (j.event c r :: xs) b')
    (ha : ∀ h, s.Finds j content h → s.act b h c.words = none) :
    r.verdict = .ok 1 ∧ s.Plays j content b xs b' :=
  hp.ran ha

/-! ## Runs -/

/-- Where the inputs are found, a command of the job does the same. -/
theorem act_congr (hf : s.Finds j content h) (hf' : s.Finds j content h') {c : Call}
    (hc : c ∈ j.calls) (b : Bench) : s.act b h c.words = s.act b h' c.words := by
  simp only [Job.calls, List.cons_append, List.nil_append, List.mem_cons, List.mem_map] at hc
  rcases hc with rfl | rfl | rfl | rfl | rfl | rfl | rfl | ⟨dir, -, rfl⟩
  · simp only [act_mount, mount, hf.image, hf'.image]
  · simp only [act_mountpoint]
  · simp only [act_umount]
  · simp only [act_sync]
  · simp only [act_mkdir]
  · simp only [act_cp, cp, hf.source, hf'.source]
  · simp only [act_mcopy, mcopy, hf.image, hf.source, hf'.image, hf'.source]
  · simp only [act_mmd, mmd, hf.image, hf'.image]

theorem afterAll_congr (hf : ∀ b, s.Finds j content (s.seen b h))
    (hf' : ∀ b, s.Finds j content (s.seen b h')) {starts : List Start}
    (hs : ∀ st ∈ starts, j.CanStart st) : s.afterAll b h starts = s.afterAll b h' starts := by
  induction starts generalizing b with
  | nil => rw [afterAll_nil, afterAll_nil]
  | cons st starts ih =>
    obtain ⟨⟨c, hc, rfl⟩, hrest⟩ := List.forall_mem_cons.1 hs
    have hafter : s.after b h (j.tools.start c).argv = s.after b h' (j.tools.start c).argv := by
      simp only [after, Tools.start, unprivileged_argv, act_congr (hf b) (hf' b) hc]
    rw [afterAll_cons, afterAll_cons, hafter]
    exact ih hrest

end Shop

section

open Shop

variable {j : Job} {logs : List Nat} {h₀ h h' : Host} {content : List UInt8} {number done : Nat}
  {b₀ : Bench} {earlier earlier' : List Start} {t : List Event}

/-- The hosts of a run keep the inputs of its job. -/
theorem Job.Keeps.turn {σ : Type} {machine : Machine σ} {a b : σ} {e : Event}
    (hk : j.Keeps logs h₀ h) (ht : Turn machine logs a h e b h') (hcan : j.Can e)
    (hm : ∀ a s h, (machine a s h).2.2 = h) : j.Keeps logs h₀ h' := by
  cases ht with
  | started hstep =>
    have hsame : h' = h := (congrArg (fun x => x.2.2) hstep).symm.trans (hm _ _ _)
    rwa [hsame]
  | logged hs => exact hk.sameButLogs hs
  | printed | complained | sought _ => exact hk
  | making => exact hcan.elim
  | removing =>
    cases hcan
    exact hk.discard

/-- A run of a job that finds its inputs, with the programs of the shop, is one of its machine. Its
commands are answered as on the bench, and the inputs stay. -/
theorem Shop.replay (hc : j.IsClean) (hin : j.HasOwnInputs logs h₀ content number)
    (ht : History ((j.shop number).programs b₀ done).machine logs earlier h t earlier' h')
    (hdone : done ≤ earlier.length) (hearlier : ∀ st ∈ earlier.drop done, j.CanStart st)
    (hcan : ∀ e ∈ t, j.Can e) (hk : j.Keeps logs h₀ h) :
    let b := (j.shop number).afterAll b₀ h (earlier.drop done)
    let b' := (j.shop number).afterAll b₀ h' (earlier'.drop done)
    History (j.shop number).machine logs b h t b' h' ∧
      (j.shop number).Plays j content b (actsOf t) b' ∧ j.Keeps logs h₀ h' := by
  induction ht with
  | nil => exact ⟨.nil, .nil, hk⟩
  | @cons a a' _ h m _ e t hturn hrest ih =>
    obtain ⟨hcan, hcans⟩ := List.forall_mem_cons.1 hcan
    have hk' : j.Keeps logs h₀ m := hk.turn hturn hcan fun _ _ _ => rfl
    -- the bench that is told from the next host is the same, but for what was started now
    have hsame : (j.shop number).afterAll b₀ h (a.drop done) =
        (j.shop number).afterAll b₀ m (a.drop done) :=
      afterAll_congr (hk.finds hc hin) (hk'.finds hc hin) hearlier
    cases hturn with
    | @started _ _ _ st r hstep =>
      cases hstep
      have hdrop : (a ++ [st]).drop done = a.drop done ++ [st] :=
        List.drop_append_of_le_length hdone
      have hlater : ∀ st' ∈ (a ++ [st]).drop done, j.CanStart st' := by
        rw [hdrop]
        refine List.forall_mem_append.2 ⟨hearlier, fun st' hm => ?_⟩
        cases List.mem_singleton.1 hm
        exact hcan
      obtain ⟨hhistory, hplays, hkept⟩ := ih (by rw [List.length_append]; omega) hlater hcans hk'
      have hafter : (j.shop number).afterAll b₀ h ((a ++ [st]).drop done) =
          (j.shop number).after ((j.shop number).afterAll b₀ h (a.drop done)) h st.argv := by
        rw [hdrop, afterAll, List.foldl_append]
        rfl
      change History _ _ ((j.shop number).afterAll b₀ h ((a ++ [st]).drop done)) _ _ _ _ at hhistory
      change Plays _ _ _ ((j.shop number).afterAll b₀ h ((a ++ [st]).drop done)) _ _ at hplays
      rw [hafter] at hhistory hplays
      exact ⟨.cons (.started rfl) hhistory, .started (hk.finds hc hin _) hplays, hkept⟩
    | logged hs =>
      obtain ⟨hhistory, hplays, hkept⟩ := ih hdone hearlier hcans hk'
      rw [← hsame] at hhistory hplays
      exact ⟨.cons (.logged hs) hhistory, hplays, hkept⟩
    | printed =>
      obtain ⟨hhistory, hplays, hkept⟩ := ih hdone hearlier hcans hk'
      exact ⟨.cons .printed hhistory, .other rfl hplays, hkept⟩
    | complained =>
      obtain ⟨hhistory, hplays, hkept⟩ := ih hdone hearlier hcans hk'
      exact ⟨.cons .complained hhistory, hplays, hkept⟩
    | sought hs =>
      obtain ⟨hhistory, hplays, hkept⟩ := ih hdone hearlier hcans hk'
      exact ⟨.cons (.sought hs) hhistory, .other rfl hplays, hkept⟩
    | making => exact hcan.elim
    | removing =>
      obtain ⟨hhistory, hplays, hkept⟩ := ih hdone hearlier hcans hk'
      rw [← hsame] at hhistory hplays
      exact ⟨.cons .removing hhistory, .other rfl hplays, hkept⟩

end

end FatInstall
