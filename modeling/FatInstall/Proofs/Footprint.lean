import FatInstall.Proofs.Host.Growth
import FatInstall.Proofs.Orderly

/-!
# The footprint of an update

An update that ends well has removed its scratch directory, whatever stood there when it began, and
left the directories above that it had to make. All else on the host is as it was: links below the
scratch directory are removed, not followed.

* `get?_tidied`: removing what is at a place takes that place and those below it.
* `Host.footprint`, `get?_aftermath`: the host after a directory was made and removed.
* `Course.aftermath_of_ok`: an update that ends well has done both.
* `update_footprint`: what it leaves, place by place.
-/

namespace FatInstall

namespace Host

variable {h h' : Host} {d : Path} {place q : Place}

/-! ## Removing -/

theorem Shrinks.spot (a : Shrinks h h') (d : Path) : h'.spot d = h.spot d := by
  rw [Host.spot, Host.spot, Host.start, Host.start, a.here]

theorem Shrinks.isStraight (a : Shrinks h h') (hs : h.IsStraight d) : h'.IsStraight d where
  noParent := hs.noParent
  noLink q hq target hl := by
    rcases a.get? q with hn | he
    · rw [hl] at hn
      cases hn
    · exact hs.noLink q (a.spot d ▸ hq) target (he ▸ hl)

theorem removeEmpty_eq_ok (hs : h.IsStraight d) (hm : h.removeEmpty d = .ok h') :
    h.spot d ≠ [] ∧ h' = { h with tree := h.tree.erase (h.spot d) } := by
  by_cases hp : d.parts = []
  · simp [removeEmpty, splitLast, hp] at hm
  obtain ⟨name, hlast, hnames⟩ := exists_splitLast hp
  have hspot := spot_of_splitLast h hnames
  simp only [removeEmpty, hlast, bind, Except.bind] at hm
  cases hd : h.directory d.parent with
  | error c =>
    rw [hd] at hm
    cases hm
  | ok above =>
    obtain ⟨rfl, -, -⟩ := eq_spot_of_locate hs.parent (directory_eq_ok.1 hd).1
    simp only [hd, ← hspot] at hm
    split at hm
    · cases hm
    split at hm
    · cases hm
    · split at hm
      · cases hm
        exact ⟨by simp [hspot], rfl⟩
      · cases hm
    · cases hm

theorem removeTree_eq_ok (hok : (h.removeTree d).1 = .ok ()) : ∃ place,
    h.directory d = .ok place ∧ (h.emptied place).removeEmpty d = .ok (h.removeTree d).2 := by
  rw [removeTree_eq] at hok ⊢
  split at hok
  · cases hok
  · cases hok
  · cases hok
  · next hd =>
    dsimp only at hok ⊢
    split at hok
    · next he => exact ⟨_, hd, he⟩
    · cases hok

/-- A directory goes with all that is below it. -/
theorem get?_removeTree (hs : h.IsStraight d) (hok : (h.removeTree d).1 = .ok ()) (q : Place) :
    (h.removeTree d).2.tree.get? q = if h.spot d <+: q then none else h.tree.get? q := by
  obtain ⟨place, hd, he⟩ := removeTree_eq_ok hok
  obtain ⟨rfl, -, -⟩ := eq_spot_of_locate hs (directory_eq_ok.1 hd).1
  have hemptied : Shrinks h (h.emptied (h.spot d)) := shrinks_eraseBelow h (h.spot d)
  obtain ⟨hroot, hgone⟩ := removeEmpty_eq_ok (hemptied.isStraight hs) he
  rw [hemptied.spot] at hroot hgone
  rw [hgone, Tree.get?_erase _ hroot, emptied, Tree.get?_eraseBelow]
  by_cases hq : q = h.spot d
  · simp [hq]
  · simp [hq, Ne.symm hq]

/-- Below a file there is nothing that could stay when it goes. -/
theorem get?_unlink (hc : h.tree.IsClosed) (hs : h.IsStraight d)
    (hok : (h.unlink d).1 = .ok ()) (q : Place) :
    (h.unlink d).2.tree.get? q = if h.spot d <+: q then none else h.tree.get? q := by
  have herased : h.tree.get? (h.spot d) ≠ some .directory →
      (h.tree.erase (h.spot d)).get? q = if h.spot d <+: q then none else h.tree.get? q := by
    intro hdir
    have hroot : h.spot d ≠ [] := fun he => hdir (by rw [he]; rfl)
    rw [Tree.get?_erase _ hroot]
    by_cases hq : q = h.spot d
    · simp [hq]
    · rw [if_neg hq]
      split
      · next hle => exact hc.below hle (Ne.symm hq) hdir
      · rfl
  rw [unlink_eq] at hok ⊢
  cases hl : h.locate false d with
  | error c =>
    rw [hl] at hok
    cases hok
  | ok place =>
    obtain ⟨rfl, -, -⟩ := eq_spot_of_locate hs hl
    rw [hl] at hok
    dsimp only at hok ⊢
    split at hok
    · cases hok
    · cases hok
    · next hdir hg => exact herased fun he => hdir (Option.some.inj (hg.symm.trans he))

/-! ## What is left -/

/-- A straight path to something can be followed, unless it is too long. -/
theorem locate_of_get? {last : Bool} (hc : h.tree.IsClosed) (hs : h.IsStraight d)
    (hp : h.tree.get? (h.spot d) ≠ none) :
    h.locate last d = .ok (h.spot d) ∨ h.locate last d = .error .nameTooLong := by
  refine locate_or_tooLong hs (isOpen_of_get? hc hp) ?_
  by_cases he : h.start d = h.spot d
  · rwa [he]
  · simp [hc.above (List.prefix_append ..) he hp]

/-- Removing makes no path too long. -/
theorem Shrinks.tooLong {last : Bool} (a : Shrinks h h') (hs : h.IsStraight d)
    (hl : h'.locate last d = .error .nameTooLong) : h.locate last d = .error .nameTooLong := by
  have hstart : h'.start d = h.start d := start_congr a.here d
  unfold locate at hl ⊢
  split
  · rfl
  next hpath =>
  rw [if_neg hpath] at hl
  split at hl
  · cases hl
  next hpresent =>
  rw [foothold_congr a.here] at hpresent
  rw [(a.get? _).resolve_left hpresent] at hpresent
  rw [if_neg hpresent]
  -- the walk to the name that is too long leads through directories that were there before
  obtain ⟨f, hf⟩ := exists_walkNames h.tree last maxLinks (h.start d) (d.parts.map entryName)
  obtain ⟨f', hf'⟩ := exists_walkNames h'.tree last maxLinks (h'.start d) (d.parts.map entryName)
  rw [hf', hstart] at hl
  rw [hf]
  refine walkNames_tooLong_of_directories hs.walk (hstart ▸ (a.isStraight hs).walk) ?_ hl
  intro q hq
  rw [← (a.get? q).resolve_left (by simp [hq]), hq]

theorem doesExist_of_tooLong (hu : unspeakable? d = none)
    (hl : h.locate true d = .error .nameTooLong) :
    h.doesExist d = .error (.system .nameTooLong d.text) := by
  simp [doesExist, look, hu, node, hl, bind, Except.bind, Except.map]

/-- A straight path leads to what is at its place, unless it is too long. -/
theorem doesExist_of_present (hc : h.tree.IsClosed) (hs : h.IsStraight d)
    (hu : unspeakable? d = none) (hg : h.tree.get? (h.spot d) ≠ none) :
    h.doesExist d = .ok true ∨ h.locate true d = .error .nameTooLong := by
  refine (locate_of_get? hc hs hg).imp_left fun hl => ?_
  obtain ⟨n, hn⟩ := Option.ne_none_iff_exists'.1 hg
  simp [doesExist, look, hu, node, hl, hn, bind, Except.bind, Except.map]

theorem doesExist_of_missing (hs : h.IsStraight d) (hu : unspeakable? d = none)
    (hg : h.tree.get? (h.spot d) = none) :
    h.doesExist d = .ok false ∨ h.locate true d = .error .nameTooLong := by
  cases hl : h.locate true d with
  | ok place =>
    obtain ⟨rfl, -, -⟩ := eq_spot_of_locate hs hl
    simp [doesExist, look, hu, node, hl, hg, bind, Except.bind, Except.map]
  | error c =>
    have hn : h.node true d = .error c := by simp [node, hl, bind, Except.bind]
    rcases node_endsWalk hn with rfl | rfl | rfl | rfl <;>
      simp [doesExist, look, hu, hn, Except.map]

theorem not_tooLong_of_clearing (hu : unspeakable? d = none) (hok : h.clearing d = .ok ()) :
    h.locate true d ≠ .error .nameTooLong := by
  intro hl
  rw [clearing, doesExist_of_tooLong hu hl] at hok
  cases hok

/-- What can be removed is removed with all that is below it. -/
theorem get?_tidied (hc : h.tree.IsClosed) (hs : h.IsStraight d) (hu : unspeakable? d = none)
    (hok : h.clearing d = .ok ()) (q : Place) :
    (h.tidied d).tree.get? q = if h.spot d <+: q then none else h.tree.get? q := by
  have hshort := not_tooLong_of_clearing hu hok
  unfold clearing at hok
  unfold tidied
  cases he : h.doesExist d with
  | error why =>
    rw [he] at hok
    cases hok
  | ok found =>
    rw [he] at hok
    cases found with
    | false =>
      have hg : h.tree.get? (h.spot d) = none := by
        by_contra hg
        rcases doesExist_of_present hc hs hu hg with he' | hl
        · cases he.symm.trans he'
        · exact hshort hl
      dsimp only
      split
      · next hle => exact hc.missing hg hle
      · rfl
    | true =>
      dsimp only at hok ⊢
      rw [discard_eq] at hok ⊢
      split at hok
      · cases hok
      · exact get?_removeTree hs hok q
      · exact get?_unlink hc hs hok q

theorem doesExist_tidied (hc : h.tree.IsClosed) (hs : h.IsStraight d)
    (hu : unspeakable? d = none) (hok : h.clearing d = .ok ()) :
    (h.tidied d).doesExist d = .ok false := by
  have ht := shrinks_tidied h d
  have hg : (h.tidied d).tree.get? ((h.tidied d).spot d) = none := by
    rw [get?_tidied hc hs hu hok, ht.spot, if_pos (List.prefix_refl _)]
  refine (doesExist_of_missing (ht.isStraight hs) hu hg).resolve_right fun hl => ?_
  exact not_tooLong_of_clearing hu hok (ht.tooLong hs hl)

/-! ## The footprint -/

/-- What is at a place after a directory was made, with those above it that were missing, and what
is there then removed: nothing at its own place and below, a directory above if one was missing and
could be made, and elsewhere what was there before. -/
def footprint (h : Host) (d : Path) (q : Place) : Option Node :=
  if h.spot d <+: q then none
  else if q <+: h.spot d ∧ h.tree.get? q = none ∧ h.HasRoom d then some .directory
  else h.tree.get? q

theorem makeDirectory_of_speakable (hu : unspeakable? d = none) :
    h.makeDirectory d = makeUpTo d.parts.length d h := by
  rw [makeDirectory, hu]

theorem grows_makeDirectory (hs : h.IsStraight d) (hu : unspeakable? d = none) :
    Grows (h.spot d) h (h.makeDirectory d).2 := by
  rw [makeDirectory_of_speakable hu]
  exact makeUpTo_grows d.parts.length hs

/-- Where there is room, all the directories above are there in the end. -/
theorem isOpen_makeDirectory (hc : h.tree.IsClosed) (hs : h.IsStraight d)
    (hu : unspeakable? d = none) (hr : h.HasRoom d)
    (hshort : (h.makeDirectory d).2.locate true d ≠ .error .nameTooLong) :
    (h.makeDirectory d).2.IsOpen d := by
  rw [makeDirectory_of_speakable hu] at hshort ⊢
  have hg := makeUpTo_grows d.parts.length hs
  rcases isSettled_makeUpTo _ (Nat.le_refl _) hc hs hu hr with ⟨-, hd⟩ | hl | ⟨n, -, hn⟩
  · exact isOpen_of_get? (hg.closed hc) (by simp [(directory_eq_ok.1 hd).2])
  · exact (hshort hl).elim
  · exact isOpen_of_get? (hg.closed hc) (by simp [hn])

/-- Making a directory and removing it leaves its footprint. -/
theorem get?_aftermath (hc : h.tree.IsClosed) (hs : h.IsStraight d) (hu : unspeakable? d = none)
    (hok : (h.makeDirectory d).2.clearing d = .ok ()) (q : Place) :
    (h.aftermath d).tree.get? q = h.footprint d q := by
  have hg := grows_makeDirectory hs hu
  rw [aftermath, get?_tidied (hg.closed hc) (hg.isStraight hs) hu hok, hg.spot, footprint]
  by_cases hbelow : h.spot d <+: q
  · rw [if_pos hbelow, if_pos hbelow]
  rw [if_neg hbelow, if_neg hbelow]
  by_cases hmade : q <+: h.spot d ∧ h.tree.get? q = none ∧ h.HasRoom d
  · rw [if_pos hmade]
    obtain ⟨hq, -, hr⟩ := hmade
    have ho := isOpen_makeDirectory hc hs hu hr (not_tooLong_of_clearing hu hok)
    refine ho q (hg.spot d ▸ hq) fun he => hbelow ?_
    rw [he, hg.spot]
  · -- without room nothing was made at all, with room only what was missing on the way
    rw [if_neg hmade]
    rcases hasRoom_of_makeUpTo d.parts.length hc hs rfl (List.prefix_refl _) with hsame | hr
    · rw [makeDirectory_of_speakable hu, hsame]
    · exact (hg.get? q).resolve_right fun hnew => hmade ⟨hnew.1, hnew.2.1, hr⟩

/-- A missing directory above is made, but not below a file. -/
example : workbench.footprint (Path.ofString "a/mnt") ["a"] = some .directory ∧
    workbench.footprint (Path.ofString "app.bin/a/mnt") ["app.bin", "a"] = none := by
  decide +kernel

theorem doesExist_aftermath (hc : h.tree.IsClosed) (hs : h.IsStraight d)
    (hu : unspeakable? d = none) (hok : (h.makeDirectory d).2.clearing d = .ok ()) :
    (h.aftermath d).doesExist d = .ok false := by
  have hg := grows_makeDirectory hs hu
  exact doesExist_tidied (hg.closed hc) (hg.isStraight hs) hu hok

end Host

/-! ## Updates that end well -/

namespace Job

variable {j : Job} {h h' : Host} {acts : List Event} {placement : Placement}

theorem Removal.tidied {res : Except Failure Bool} (hr : j.Removal Still h acts res h')
    (hres : res = .ok true) : h.clearing j.mountDir = .ok () ∧ h' = h.tidied j.mountDir := by
  cases hr with
  | unseen _ | broken _ _ _ | mounted _ _ _ | unclear _ _ _ _ _ => cases hres
  | absent he => simp [Host.clearing, Host.tidied, he]
  | removed he ht _ _ _ =>
    cases ht
    rw [Host.discardBy_plain] at hres ⊢
    simp only [Host.clearing, Host.tidied, he, and_true]
    cases hremoved : (h.discard j.mountDir).1 with
    | error why =>
      rw [hremoved] at hres
      cases hres
    | ok _ => rfl

theorem Release.tidied {res : Except Failure Unit} (hr : j.Release Still true h acts res h')
    (hres : res = .ok ()) : h.clearing j.mountDir = .ok () ∧ h' = h.tidied j.mountDir := by
  cases hr with
  | broken _ _ | kept _ _ _ | unsynced _ _ _ _ => cases hres
  | @freed _ _ _ _ removed _ _ _ ht _ ht' _ hrem =>
    cases ht
    cases ht'
    refine hrem.tidied ?_
    rcases removed with f | _ | _
    · cases hres
    · cases hres
    · rfl

theorem MountedCourse.tidied {res : Except Failure Placement}
    (hm : j.MountedCourse Still h acts res h') (hres : res = .ok placement) :
    h.clearing j.mountDir = .ok () ∧ h' = h.tidied j.mountDir := by
  cases hm with
  | @uncopied _ _ _ released _ _ _ _ => cases released <;> cases hres
  | broken _ _ | unreleased _ _ => cases hres
  | done hc hr =>
    cases hc.host
    exact hr.tidied rfl

theorem OfflineCourse.tidied {res : Except Failure Placement}
    (ho : j.OfflineCourse Still h acts res h') (hres : res = .ok placement) :
    h.clearing j.mountDir = .ok () ∧ h' = h.tidied j.mountDir := by
  cases ho with
  | done ht _ hr hm ht' _ =>
    cases ht
    cases ht'
    cases hm.host
    exact hr.tidied rfl
  | _ => cases hres

theorem RouteCourse.tidied {route : Route}
    (hr : j.RouteCourse Still route h acts (.ok placement) h') :
    h.clearing j.mountDir = .ok () ∧ h' = h.tidied j.mountDir := by
  cases route with
  | mounted => exact MountedCourse.tidied hr rfl
  | offline => exact OfflineCourse.tidied hr rfl

theorem Selection.speakable {route : Route} (hs : j.Selection Still h acts (.ok route) h') :
    Host.unspeakable? j.mountDir = none :=
  Option.eq_none_iff_forall_ne_some.2 fun why hu => by cases hs.refused_of_unspeakable hu

end Job

section

variable {source : Path} {settings : Settings} {tools : Option Tools} {h h' : Host} {d : Path}
  {acts : List Event} {placement : Placement}

/-- An update that ends well has made its scratch directory and removed what is there. -/
theorem Course.aftermath_of_ok (hd : settings.mountDir = .ok d)
    (hc : Course Still source settings tools h acts (.ok placement) h') :
    Host.unspeakable? d = none ∧ (h.makeDirectory d).2.clearing d = .ok () ∧
      h' = h.aftermath d := by
  cases hc with
  | selected _ _ _ hj hs hr =>
    cases hd.symm.trans (Settings.mountDir_of_job hj)
    obtain ⟨hok, rfl⟩ := hr.tidied
    cases hs.host
    exact ⟨hs.speakable, hok, rfl⟩

/-- An update that is not dry and ends well, on a host whose other programs touch nothing and with
a scratch directory whose path goes straight, leaves the footprint of the scratch directory, which
is not there any more. What it wrote to its own logs is left out. -/
theorem update_footprint {programs : Programs} {w : World} (hp : Inert programs)
    (hdry : settings.dryRun = false) (htools : ∀ t, tools = some t → t.dryRun = false)
    (hd : settings.mountDir = .ok d) (hc : w.host.tree.IsClosed) (hs : w.host.IsStraight d)
    (hok : (update source settings tools programs w).1 = .ok placement) :
    (∀ q, ((update source settings tools programs w).2.host.tree.get? q).map
        (Host.Node.blank w.journal.openLogs) =
      (w.host.footprint d q).map (Host.Node.blank w.journal.openLogs)) ∧
    (update source settings tools programs w).2.host.doesExist d = .ok false := by
  obtain ⟨added, -, hcourse⟩ := course_of_inert w hp
    fun image j (hj : settings.job source image tools = .ok j) =>
      Settings.isLive_of_job hdry htools hj
  rw [hok] at hcourse
  obtain ⟨hu, hclear, hafter⟩ := hcourse.aftermath_of_ok hd
  rw [Host.makeDirectory_blank, Host.clearing_blank] at hclear
  rw [Host.aftermath_blank] at hafter
  constructor
  · intro q
    rw [← Host.Tree.get?_blank, ← Host.blank_tree, hafter, Host.blank_tree, Host.Tree.get?_blank,
      Host.get?_aftermath hc hs hu hclear]
  · rw [← Host.doesExist_blank w.journal.openLogs, hafter, Host.doesExist_blank]
    exact Host.doesExist_aftermath hc hs hu hclear

end

/-- A full scratch directory goes, and the file that a link in it leads to stays. -/
theorem update_footprint_full :
    let h : Host := ⟨⟨[(["app.bin"], .file 0 [7]), (["disk.img"], .file 1 [1, 2]),
      (["keep"], .directory), (["keep", "note"], .file 2 [3]), (["mnt"], .directory),
      (["mnt", "away"], .link "../keep"), (["mnt", "old"], .file 3 [])], 4⟩, []⟩
    let programs : Programs := fun _ s h =>
      (.exited (if ("mountpoint" : Text) ∈ s.argv then 1 else 0) "" "", h)
    let d := Path.ofString "mnt"
    let run := update (Path.ofString "app.bin") .empty none programs (.untouched h)
    Inert programs ∧ Settings.empty.dryRun = false ∧ Settings.empty.mountDir = .ok d ∧
      h.tree.IsClosed ∧ h.IsStraight d ∧ (∃ placement, run.1 = .ok placement) ∧
      (∀ q, run.2.host.tree.get? q = h.footprint d q) ∧ run.2.host.doesExist d = .ok false ∧
      run.2.host.tree.get? ["keep", "note"] = some (.file 2 [3]) := by
  intro h programs d run
  have hp : Inert programs := fun _ _ _ => rfl
  have hd : Settings.empty.mountDir = .ok d := eq_ok_of_toOption (by decide +kernel)
  have hc : h.tree.IsClosed := Host.Tree.isClosed_of_entries (by decide +kernel)
  have hs : h.IsStraight d := by decide +kernel
  obtain ⟨placement, hok⟩ : ∃ placement, run.1 = .ok placement := by
    have hended : run.1.toOption.isSome := by decide +kernel
    obtain ⟨placement, hplaced⟩ := Option.isSome_iff_exists.1 hended
    exact ⟨placement, eq_ok_of_toOption hplaced⟩
  obtain ⟨hleft, hgone⟩ := update_footprint (w := .untouched h) hp rfl (by simp) hd hc hs hok
  have hblank : Host.Node.blank (World.untouched h).journal.openLogs = id :=
    funext Host.Node.blank_nil
  simp only [hblank, Option.map_id_apply] at hleft
  refine ⟨hp, rfl, hd, hc, hs, ⟨placement, hok⟩, hleft, hgone, ?_⟩
  rw [hleft]
  decide +kernel

end FatInstall
