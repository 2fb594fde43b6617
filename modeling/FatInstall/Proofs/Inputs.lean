import FatInstall.Proofs.Run.Leftovers
import FatInstall.World.Script

/-!
# What an update does to its own inputs

An update whose programs touch nothing leaves the host as it was, or with the scratch directory
made, or with it removed again. The source and the image are still there unless the removal takes
something on the way to one of them.

* `Host.Keeps`: a file is still there, with its content.
* `update_keepsInputs_iff`: the inputs are kept, whatever the programs answer, exactly if nothing
  on the way to them is gone from the aftermath.
-/

namespace FatInstall

namespace Host

/-- Does the path lead to a file of the same content on both hosts? -/
def Keeps (h h' : Host) (p : Path) : Prop := h'.isFile p = .ok true ∧ h'.read p = h.read p

section

variable {h h' : Host} {p d : Path}

theorem isFile_eq_ok_true :
    h.isFile p = .ok true ↔ unspeakable? p = none ∧ ∃ k c, h.node true p = .ok (.file k c) := by
  unfold isFile look
  cases hu : unspeakable? p with
  | some why => simp [Except.map]
  | none =>
    simp only [Option.isSome_none, Bool.false_eq_true, if_false, true_and]
    rcases h.node true p with c | n
    · cases c <;> simp [Except.map]
    · cases n <;> simp [Except.map]

/-- A path that leads to the same file keeps it. -/
theorem keeps_of_node {k : Nat} {c : List UInt8} (hu : unspeakable? p = none)
    (hn : h.node true p = .ok (.file k c)) (hn' : h'.node true p = .ok (.file k c)) :
    h.Keeps h' p :=
  ⟨isFile_eq_ok_true.2 ⟨hu, k, c, hn'⟩, by simp [read, hn, hn']⟩

theorem blank_file {logs : List Nat} {k : Nat} {c : List UInt8} (hk : k ∉ logs)
    (hn : h.node true p = .ok (.file k c)) :
    (h.blank logs).node true p = .ok (.file k c) := by
  rw [node_blank, hn]
  simp [Except.map, Node.blank, hk]

/-- A file that is no open log is found as it is if it is found without the logs. -/
theorem node_of_blank {logs : List Nat} {k : Nat} {c : List UInt8} (hk : k ∉ logs)
    (hn : (h.blank logs).node true p = .ok (.file k c)) : h.node true p = .ok (.file k c) := by
  rw [node_blank] at hn
  cases hm : h.node true p with
  | error why =>
    rw [hm] at hn
    cases hn
  | ok m =>
    rw [hm] at hn
    cases m with
    | file k' c' =>
      simp only [Except.map, Node.blank, Except.ok.injEq, Node.file.injEq] at hn
      obtain ⟨rfl, hc⟩ := hn
      rw [if_neg hk] at hc
      rw [hc]
    | _ => cases hn

/-! ## Files in the aftermath -/

variable {n : Node}

theorem node_makeDirectory (hn : h.node true p = .ok n) (hd : n ≠ .directory) :
    (h.makeDirectory d).2.node true p = .ok n :=
  node_of_way (extends_makeDirectory h d).here hn hd fun q hq =>
    (extends_makeDirectory h d).get? q (present_of_way hn hd q hq)

theorem node_aftermath (hn : h.node true p = .ok n) (hd : n ≠ .directory)
    (hq : ∀ q ∈ h.way p, (h.aftermath d).tree.get? q ≠ none) :
    (h.aftermath d).node true p = .ok n :=
  node_of_way (aftermath_here h d) hn hd fun q hm =>
    (aftermath_get? h d (present_of_way hn hd q hm)).resolve_left (hq q hm)

theorem node_aftermath_ne_ok (hn : h.node true p = .ok n) (hd : n ≠ .directory)
    (hq : ∃ q ∈ h.way p, (h.aftermath d).tree.get? q = none) (m : Node) :
    (h.aftermath d).node true p ≠ .ok m :=
  node_ne_ok_of_gone (aftermath_here h d) hn hd
    (fun q hm => aftermath_get? h d (present_of_way hn hd q hm)) hq m

end

end Host

/-! ## Updates -/

/-- The programs that all fail. -/
def failing : Programs := fun _ _ h => (.exited 1 "" "", h)

section

variable {source image : Path} {settings : Settings} {tools : Option Tools} {j : Job}

/-- The course of an update whose programs touch nothing. -/
theorem course_of_inert {programs : Programs} (w : World) (hp : Inert programs)
    (hlive : ∀ image j, settings.job source image tools = .ok j → j.IsLive) :
    ∃ added, Answered programs (startsOf w.trace) added ∧
      Course Still source settings tools (w.host.blank w.journal.openLogs) (actsOf added)
        (update source settings tools programs w).1
        ((update source settings tools programs w).2.host.blank w.journal.openLogs) := by
  obtain ⟨added, -, -, ha, hc⟩ := obeys_update (s := .still programs w.journal.openLogs hp)
    (h := w.host.blank w.journal.openLogs) hlive w rfl rfl
  exact ⟨added, ha, hc⟩

/-- An update that is not dry, on a host whose other programs touch nothing, keeps its source and
its image, whatever these programs answer, exactly if nothing on the way to them is gone after the
scratch directory was made and what is there removed. -/
theorem update_keepsInputs_iff {w : World} (hdry : settings.dryRun = false)
    (htools : ∀ t, tools = some t → t.dryRun = false) (hi : settings.imagePath = .ok image)
    (hj : settings.job source image tools = .ok j)
    (hfiles : ∀ p ∈ [source, image], w.host.isFile p = .ok true)
    (hlogs : ∀ p ∈ [source, image], ∀ k c, w.host.node true p = .ok (.file k c) →
      k ∉ w.journal.openLogs) :
    (∀ programs, Inert programs → ∀ p ∈ [source, image],
      w.host.Keeps (update source settings tools programs w).2.host p) ↔
    ∀ p ∈ [source, image], ∀ q ∈ w.host.way p,
      (w.host.aftermath j.mountDir).tree.get? q ≠ none := by
  have hlive : ∀ image j, settings.job source image tools = .ok j → j.IsLive :=
    fun _ _ hj => Settings.isLive_of_job hdry htools hj
  constructor
  · -- programs that fail leave the aftermath
    intro hkeeps p hp q hq hgone
    obtain ⟨-, k, c, hn⟩ := Host.isFile_eq_ok_true.1 (hfiles p hp)
    have hn := Host.blank_file (hlogs p hp k c hn) hn
    have hinert : Inert failing := fun _ _ _ => rfl
    obtain ⟨added, ha, hc⟩ := course_of_inert w hinert hlive
    have hfail : AllFail (actsOf added) := fun st r hm => by
      rw [(answered_actsOf ha).forall_reply (P := (· = .exited 1 "" "")) (fun _ _ _ => rfl) st r hm]
      rfl
    have hafter := hc.host_of_allFail hi hj
      (by rw [Host.isFile_blank]; exact hfiles _ (.head _))
      (by rw [Host.isFile_blank]; exact hfiles _ (.tail _ (.head _))) hfail
    obtain ⟨-, k', c', hn'⟩ := Host.isFile_eq_ok_true.1 (hkeeps failing hinert p hp).1
    refine Host.node_aftermath_ne_ok (d := j.mountDir) hn (by simp) ⟨q, ?_, ?_⟩
      (Host.Node.blank w.journal.openLogs (.file k' c')) ?_
    · rwa [Host.way_blank]
    · rwa [Host.aftermath_blank_get?]
    · rw [← hafter, Host.node_blank, hn']
      rfl
  · intro hway programs hinert p hp
    obtain ⟨hu, k, c, hn⟩ := Host.isFile_eq_ok_true.1 (hfiles p hp)
    have hk := hlogs p hp k c hn
    refine Host.keeps_of_node hu hn (Host.node_of_blank hk ?_)
    have hn := Host.blank_file hk hn
    obtain ⟨added, -, hc⟩ := course_of_inert w hinert hlive
    rcases hc.host hi hj with hh | hh | hh <;> rw [hh]
    · exact hn
    · exact Host.node_makeDirectory hn (by simp)
    · refine Host.node_aftermath hn (by simp) fun q hq => ?_
      rw [Host.way_blank] at hq
      rw [Ne, Host.aftermath_blank_get?]
      exact hway p hp q hq

end

/-- With the usual settings, and nothing where the scratch directory is to be, the inputs are
kept. -/
theorem update_keepsInputs_usual :
    let w := World.untouched .workbench
    let source := Path.ofString "app.bin"
    let image := Path.ofString "disk.img"
    let j : Job := ⟨source, image, Path.ofString "mnt", "/sbin", ⟨true, false⟩, false⟩
    Settings.empty.dryRun = false ∧ Settings.empty.imagePath = .ok image ∧
      Settings.empty.job source image none = .ok j ∧
      (∀ p ∈ [source, image], w.host.isFile p = .ok true) ∧
      (∀ p ∈ [source, image], ∀ k c, w.host.node true p = .ok (.file k c) →
        k ∉ w.journal.openLogs) ∧
      ∀ programs, Inert programs → ∀ p ∈ [source, image],
        w.host.Keeps (update source .empty none programs w).2.host p := by
  intro w source image j
  have hi : Settings.empty.imagePath = .ok image := eq_ok_of_toOption (by decide +kernel)
  have hj : Settings.empty.job source image none = .ok j := eq_ok_of_toOption (by decide +kernel)
  have hfiles : ∀ p ∈ [source, image], w.host.isFile p = .ok true := by
    have h : ∀ p ∈ [source, image], (w.host.isFile p).toOption = some true := by decide +kernel
    exact fun p hp => eq_ok_of_toOption (h p hp)
  have hlogs : ∀ p ∈ [source, image], ∀ k c, w.host.node true p = .ok (.file k c) →
      k ∉ w.journal.openLogs := fun _ _ _ _ _ hk => nomatch hk
  exact ⟨rfl, hi, hj, hfiles, hlogs,
    (update_keepsInputs_iff rfl (by simp) hi hj hfiles hlogs).2 (by decide +kernel)⟩

/-- An update whose scratch directory is named like the image removes the image, and one whose
scratch directory holds the source removes the source. -/
theorem update_losesInputs :
    let named (dir : String) := Settings.ofEntries [(.text "mount_dir", .text dir)]
    let app := Path.ofString "data/app.bin"
    let image := Path.ofString "disk.img"
    let h : Host := ⟨⟨[(["data"], .directory), (["data", "app.bin"], .file 0 [7]),
      (["disk.img"], .file 1 [1, 2])], 2⟩, []⟩
    let after (dir : String) :=
      (update app (named dir) none failing (World.untouched h)).2.host
    Inert failing ∧ h.isFile app = .ok true ∧ h.isFile image = .ok true ∧
      ¬h.Keeps (after "disk.img") image ∧ ¬h.Keeps (after "data") app := by
  intro named app image h after
  have himage : ((after "disk.img").isFile image).toOption = some false := by decide +kernel
  have happ : ((after "data").isFile app).toOption = some false := by decide +kernel
  refine ⟨fun _ _ _ => rfl, eq_ok_of_toOption (by decide +kernel),
    eq_ok_of_toOption (by decide +kernel), fun hk => ?_, fun hk => ?_⟩
  · cases (eq_ok_of_toOption himage).symm.trans hk.1
  · cases (eq_ok_of_toOption happ).symm.trans hk.1

end FatInstall
