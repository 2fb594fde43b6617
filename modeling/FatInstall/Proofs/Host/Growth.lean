import FatInstall.Proofs.Host.Straight

/-!
# Making a directory that a straight path names

Making a directory makes those above it that are missing too. With nothing but directories on the
way it gets to the end, unless the path is too long; with anything else there it makes nothing.

* `Grows`: directories were made at a place or above it, and nothing else happened.
* `makeUpTo_grows`, `hasRoom_of_makeUpTo`: what is made, and where there must have been room for it.
* `IsSettled`, `isSettled_makeUpTo`: where there is room, making the directory gets to the end.
-/

namespace FatInstall.Host

variable {h h' h'' : Host} {p d : Path} {place place' q : Place}

/-! ## Growing -/

/-- The second host is the first one with directories in some of the places that were empty, all of
them the given place or above it. -/
structure Grows (place : Place) (h h' : Host) : Prop where
  here : h'.here = h.here
  closed : h.tree.IsClosed → h'.tree.IsClosed
  get? : ∀ q, h'.tree.get? q = h.tree.get? q ∨
    q <+: place ∧ h.tree.get? q = none ∧ h'.tree.get? q = some .directory

theorem Grows.refl (place : Place) (h : Host) : Grows place h h := ⟨rfl, id, fun _ => .inl rfl⟩

theorem Grows.trans (a : Grows place h h') (b : Grows place h' h'') : Grows place h h'' := by
  refine ⟨b.here.trans a.here, b.closed ∘ a.closed, fun q => ?_⟩
  rcases a.get? q with ha | ⟨hq, hn, hd⟩
  · rw [← ha]
    exact b.get? q
  · rcases b.get? q with hb | ⟨-, hn', -⟩
    · exact .inr ⟨hq, hn, hb.trans hd⟩
    · rw [hd] at hn'
      cases hn'

theorem Grows.mono (a : Grows place h h') (hp : place <+: place') : Grows place' h h' :=
  ⟨a.here, a.closed, fun q => (a.get? q).imp_right fun ⟨hq, hn⟩ => ⟨hq.trans hp, hn⟩⟩

theorem Grows.start (a : Grows place h h') (d : Path) : h'.start d = h.start d :=
  start_congr a.here d

theorem Grows.spot (a : Grows place h h') (d : Path) : h'.spot d = h.spot d := by
  rw [Host.spot, Host.spot, a.start]

/-- What is no new directory was there before. -/
theorem Grows.get?_eq (a : Grows place h h') {n : Node} (hn : n ≠ .directory)
    (hq : h'.tree.get? q = some n) : h.tree.get? q = some n := by
  rcases a.get? q with he | ⟨-, -, hd⟩
  · rw [← he, hq]
  · rw [hq] at hd
    exact (hn (Option.some.inj hd)).elim

theorem Grows.isStraight (a : Grows place h h') (hs : h.IsStraight d) : h'.IsStraight d where
  noParent := hs.noParent
  noLink q hq target hl := hs.noLink q (a.spot d ▸ hq) target (a.get?_eq (by simp) hl)

theorem Grows.hasRoom (a : Grows place h h') (hr : h.HasRoom d) : h'.HasRoom d := by
  have hkeep : ∀ q, h.tree.get? q = none ∨ h.tree.get? q = some .directory →
      h'.tree.get? q = none ∨ h'.tree.get? q = some .directory := by
    intro q hq
    rcases a.get? q with he | ⟨-, -, hd⟩
    · rwa [he]
    · exact .inr hd
  constructor
  · rw [a.start]
    rcases a.get? (h.start d) with he | ⟨-, -, hd⟩
    · rw [he, hr.1]
    · exact hd
  · rw [a.spot]
    exact fun q hq hne => hkeep q (hr.2 q hq hne)

/-! ## The path above -/

theorem exists_splitLast (hp : p.parts ≠ []) : ∃ name, splitLast p = some (p.parent, name) ∧
    p.parts.map entryName = p.parent.parts.map entryName ++ [name] := by
  have hlast : splitLast p = some (p.parent, entryName (p.parts.getLast hp)) := by
    rw [splitLast, List.getLast?_eq_some_getLast hp]
    rfl
  exact ⟨_, hlast, (splitLast_eq_some hlast).2⟩

theorem spot_of_splitLast {name : Text} (h : Host)
    (hn : p.parts.map entryName = p.parent.parts.map entryName ++ [name]) :
    h.spot p = h.spot p.parent ++ [name] := by
  have hstart : h.start p.parent = h.start p := rfl
  rw [spot, spot, hn, hstart, List.append_assoc]

theorem spot_parent_le (h : Host) (p : Path) : h.spot p.parent <+: h.spot p := by
  have hstart : h.start p.parent = h.start p := rfl
  rw [spot, spot, hstart, List.prefix_append_right_inj]
  exact (List.dropLast_prefix p.parts).map entryName

theorem IsStraight.parent (hs : h.IsStraight p) : h.IsStraight p.parent where
  noParent hm := hs.noParent (List.dropLast_subset _ hm)
  noLink q hq := hs.noLink q (hq.trans (spot_parent_le h p))

/-! ## Making one directory -/

/-- A directory is made at the place of its path, which was empty, in a directory. -/
theorem makeOne_eq_ok (hs : h.IsStraight p) (hm : h.makeOne p = .ok h') :
    h.tree.get? (h.spot p) = none ∧ (∃ name, h.spot p = h.spot p.parent ++ [name]) ∧
      h.tree.get? (h.spot p.parent) = some .directory ∧
      h' = { h with tree := h.tree.put (h.spot p) .directory } := by
  by_cases hp : p.parts = []
  · simp [makeOne, splitLast, hp] at hm
  obtain ⟨name, hlast, hnames⟩ := exists_splitLast hp
  simp only [makeOne, hlast, bind, Except.bind] at hm
  split at hm
  · cases hm
  cases hd : h.directory p.parent with
  | error c =>
    rw [hd] at hm
    cases hm
  | ok above =>
    simp only [hd] at hm
    obtain ⟨hl, hg⟩ := directory_eq_ok.1 hd
    obtain ⟨rfl, -, -⟩ := eq_spot_of_locate hs.parent hl
    rw [← spot_of_splitLast h hnames] at hm
    split at hm
    · cases hm
    split at hm
    · cases hm
    split at hm
    · cases hm
    next hnone =>
    cases hm
    exact ⟨hnone, ⟨name, spot_of_splitLast h hnames⟩, hg, rfl⟩

theorem makeOne_grows (hs : h.IsStraight p) (hm : h.makeOne p = .ok h') :
    Grows (h.spot p) h h' := by
  obtain ⟨hnone, ⟨last, hspot⟩, hdir, rfl⟩ := makeOne_eq_ok hs hm
  have hself := h.tree.get?_put_self (h.spot p) .directory (by simp [hspot])
  refine ⟨rfl, fun hc dir name hp => ?_, fun q => ?_⟩
  · by_cases hd : dir = h.spot p
    · exact hd ▸ hself
    refine (h.tree.get?_put_of_ne .directory hd).trans ?_
    by_cases he : dir ++ [name] = h.spot p
    · obtain ⟨rfl, -⟩ := List.append_inj' (he.trans hspot) rfl
      exact hdir
    · exact hc dir name (h.tree.get?_put_of_ne .directory he ▸ hp)
  · by_cases hq : q = h.spot p
    · exact .inr ⟨hq ▸ List.prefix_refl _, hq ▸ hnone, hq ▸ hself⟩
    · exact .inl (h.tree.get?_put_of_ne .directory hq)

/-- A directory can be made above the place of a path only if there is room for the whole path. -/
theorem hasRoom_of_makeOne (hc : h.tree.IsClosed) (hs : h.IsStraight p)
    (hm : h.makeOne p = .ok h') (hstart : h.start p = h.start d) (hp : h.spot p <+: h.spot d) :
    h.HasRoom d := by
  obtain ⟨hnone, ⟨last, hspot⟩, hdir, -⟩ := makeOne_eq_ok hs hm
  refine ⟨hstart ▸ hc.directory (List.prefix_append ..) hdir, fun q hq _ => ?_⟩
  rcases List.prefix_or_prefix_of_prefix hq hp with hle | hle
  · by_cases he : q = h.spot p
    · exact .inl (he ▸ hnone)
    · rw [hspot] at hle he
      exact .inr (hc.directory ((List.prefix_concat_iff.1 hle).resolve_left he) hdir)
  · exact .inl (hc.missing hnone hle)

/-! ## Making a directory with those above it -/

theorem makeUpTo_grows (levels : Nat) (hs : h.IsStraight p) :
    Grows (h.spot p) h (makeUpTo levels p h).2 := by
  induction levels generalizing p with
  | zero =>
    unfold makeUpTo
    split
    · next hm => exact makeOne_grows hs hm
    · exact .refl _ h
    · rw [settle_host]
      exact .refl _ h
  | succ levels ih =>
    unfold makeUpTo
    split
    · next hm => exact makeOne_grows hs hm
    · have hup := (ih hs.parent).mono (spot_parent_le h p)
      dsimp only
      split
      · next hp => rwa [hp] at hup
      · next hp =>
        rw [hp] at hup
        split
        · next hm => exact hup.trans (hup.spot p ▸ makeOne_grows (hup.isStraight hs) hm)
        · exact hup
        · rw [settle_host]
          exact hup
    · rw [settle_host]
      exact .refl _ h

/-- Nothing is made without room for the whole path. -/
theorem hasRoom_of_makeUpTo (levels : Nat) (hc : h.tree.IsClosed) (hs : h.IsStraight p)
    (hstart : h.start p = h.start d) (hp : h.spot p <+: h.spot d) :
    (makeUpTo levels p h).2 = h ∨ h.HasRoom d := by
  induction levels generalizing p with
  | zero =>
    unfold makeUpTo
    split
    · next hm => exact .inr (hasRoom_of_makeOne hc hs hm hstart hp)
    · exact .inl rfl
    · exact .inl (settle_host ..)
  | succ levels ih =>
    unfold makeUpTo
    split
    · next hm => exact .inr (hasRoom_of_makeOne hc hs hm hstart hp)
    · next hmissing =>
      have hup := ih hs.parent hstart ((spot_parent_le h p).trans hp)
      dsimp only
      split
      · next he => rwa [he] at hup
      · next he =>
        rw [he] at hup
        refine hup.imp_left fun hsame => ?_
        dsimp only at hsame
        subst hsame
        rw [hmissing]
    · exact .inl (settle_host ..)

/-! ## Paths that are too long -/

theorem intercalate_dropLast_prefix {α : Type} (sep : List α) (xs : List (List α)) :
    sep.intercalate xs.dropLast <+: sep.intercalate xs := by
  induction xs with
  | nil => exact List.prefix_refl _
  | cons x xs ih =>
    match xs with
    | [] => simp [List.intercalate]
    | [y] => simp [List.intercalate]
    | y :: z :: xs =>
      simpa [List.intercalate, List.intersperse, List.prefix_append_right_inj] using ih

theorem byteSize_mono {t u : Text} (h : t.points <+: u.points) :
    t.byteSize ≤ u.byteSize := by
  obtain ⟨more, hmore⟩ := h
  rw [Text.byteSize, Text.byteSize, ← hmore, List.flatMap_append, List.length_append]
  exact Nat.le_add_right ..

/-- A path is too long if the one above is. -/
theorem maxPath_le_of_parent (h : maxPath ≤ p.parent.text.byteSize) :
    maxPath ≤ p.text.byteSize := by
  by_cases hroot : p.parent.anchor = .relative ∧ p.parent.parts = []
  · have hdot : p.parent.text = "." := if_pos hroot
    rw [hdot] at h
    exact absurd h (by decide +kernel)
  · have hparent : p.parent.text = Path.anchorText p.anchor ++
        Text.intercalate "/" p.parts.dropLast := if_neg hroot
    have htext : p.text = Path.anchorText p.anchor ++ Text.intercalate "/" p.parts :=
      if_neg fun hp => hroot ⟨hp.1, by simp [Path.parent, hp.2]⟩
    refine Nat.le_trans h (byteSize_mono ?_)
    rw [hparent, htext]
    refine (List.prefix_append_right_inj _).2 ?_
    have hpieces := intercalate_dropLast_prefix ("/" : Text).points (p.parts.map Text.points)
    rwa [← List.map_dropLast] at hpieces

/-! ## Below a directory -/

section

variable {name : Text} {last : Bool}

theorem HasRoom.parent (hr : h.HasRoom p) : h.HasRoom p.parent := by
  have hle := spot_parent_le h p
  refine ⟨hr.1, fun q hq hne => hr.2 q (hq.trans hle) fun he => hne ?_⟩
  exact hq.eq_of_length_le (he ▸ hle.length_le)

/-- Below a directory that is found, a path can be followed unless it is too long. -/
theorem locate_of_directory (hc : h.tree.IsClosed) (hs : h.IsStraight p)
    (hnames : p.parts.map entryName = p.parent.parts.map entryName ++ [name])
    (hd : h.directory p.parent = .ok place) :
    h.locate last p = if maxPath ≤ p.text.byteSize ∨ maxName < name.byteSize then
      .error .nameTooLong else .ok (h.spot p) := by
  obtain ⟨hl, hg⟩ := directory_eq_ok.1 hd
  obtain ⟨rfl, -, hshort⟩ := eq_spot_of_locate hs.parent hl
  have hspot := spot_of_splitLast h hnames
  have ho : h.IsOpen p := by
    intro q hq hne
    rw [hspot] at hq hne
    exact hc.directory ((List.prefix_concat_iff.1 hq).resolve_left hne) hg
  have hstart : h.tree.get? (h.start p) = some .directory :=
    hc.directory (List.prefix_append ..) hg
  by_cases hpath : maxPath ≤ p.text.byteSize
  · rw [if_pos (.inl hpath), locate, if_pos hpath]
  by_cases hname : maxName < name.byteSize
  · rw [if_pos (.inr hname)]
    rcases locate_or_tooLong hs ho (by simp [hstart]) with hlp | hlp
    · have hlast := (eq_spot_of_locate hs hlp).2.2 name (by simp [hnames])
      exact (Nat.not_lt.2 hlast hname).elim
    · exact hlp
  · rw [if_neg (not_or.2 ⟨hpath, hname⟩)]
    refine locate_of_isOpen hs ho (by simp [hstart]) hpath ?_
    rw [hnames]
    exact fun n hn => (List.mem_append.1 hn).elim (hshort n) fun hn => by
      simpa [List.mem_singleton.1 hn] using hname

/-- Below a directory that is found, a directory is made unless something is there. -/
theorem makeOne_of_directory (hs : h.IsStraight p)
    (hlast : splitLast p = some (p.parent, name))
    (hnames : p.parts.map entryName = p.parent.parts.map entryName ++ [name])
    (hd : h.directory p.parent = .ok place) :
    h.makeOne p = if maxPath ≤ p.text.byteSize ∨ maxName < name.byteSize then
      .error .nameTooLong else if h.tree.get? (h.spot p) = none then
        .ok { h with tree := h.tree.put (h.spot p) .directory } else .error .present := by
  obtain ⟨rfl, -, -⟩ := eq_spot_of_locate hs.parent (directory_eq_ok.1 hd).1
  have hname : name ≠ Path.parentName := fun he => hs.walk.noParent (by simp [hnames, he])
  by_cases hpath : maxPath ≤ p.text.byteSize
  · simp [makeOne, hlast, hpath, bind, Except.bind]
  simp only [makeOne, hlast, hpath, hd, bind, Except.bind, hname, if_false, false_or,
    ← spot_of_splitLast h hnames]
  split
  · rfl
  · cases hg : h.tree.get? (h.spot p) <;> simp

/-! ## Settling -/

/-- What comes of making a directory where there is room: it is there, or the path is too long, or
something else stands in its place. -/
def IsSettled (p : Path) (r : Except Refusal Unit × Host) : Prop :=
  (r.1 = .ok () ∧ r.2.directory p = .ok (r.2.spot p)) ∨
    r.2.locate true p = .error .nameTooLong ∨
      ∃ n, n ≠ .directory ∧ r.2.tree.get? (r.2.spot p) = some n

theorem settle_of_directory (hu : unspeakable? p = none) (hd : h.directory p = .ok place)
    (c : Cause) : h.settle p c = (.ok (), h) := by
  obtain ⟨hl, hg⟩ := directory_eq_ok.1 hd
  have hdir : h.isDirectory p = .ok true := by
    simp [isDirectory, look, hu, node, hl, bind, Except.bind, hg, Except.map]
  unfold settle
  rw [hdir]

/-- Is a directory settled after the attempt to make it, whatever comes of the attempt? -/
structure Settles (h : Host) (p : Path) : Prop where
  found : h.makeOne p ≠ .error .missing
  made : ∀ h', h.makeOne p = .ok h' → IsSettled p (.ok (), h')
  refused : ∀ c, h.makeOne p = .error c → IsSettled p (h.settle p c)

theorem settles_of_tooLong (hmade : h.makeOne p = .error .nameTooLong)
    (hl : h.locate true p = .error .nameTooLong) : h.Settles p where
  found := by simp [hmade]
  made := by simp [hmade]
  refused c _ := .inr (.inl (by rw [settle_host, hl]))

/-- The attempt to make a directory below one that is found settles it. -/
theorem settles_of_directory (hc : h.tree.IsClosed) (hs : h.IsStraight p)
    (hu : unspeakable? p = none) (hp : p.parts ≠ []) (hd : h.directory p.parent = .ok place) :
    h.Settles p := by
  obtain ⟨name, hlast, hnames⟩ := exists_splitLast hp
  have hmade := makeOne_of_directory hs hlast hnames hd
  have hfound : h.locate true p = _ := locate_of_directory hc hs hnames hd
  by_cases hlong : maxPath ≤ p.text.byteSize ∨ maxName < name.byteSize
  · rw [if_pos hlong] at hmade hfound
    exact settles_of_tooLong hmade hfound
  rw [if_neg hlong] at hmade hfound
  by_cases hnone : h.tree.get? (h.spot p) = none
  · rw [if_pos hnone] at hmade
    have hg := makeOne_grows hs hmade
    refine ⟨by simp [hmade], ?_, by simp [hmade]⟩
    intro h' hm
    cases hmade.symm.trans hm
    refine .inl ⟨rfl, directory_eq_ok.2 ⟨?_, ?_⟩⟩
    · rw [locate_of_directory (hg.closed hc) (hg.isStraight hs) hnames
        (directory_of_extends (extends_makeOne hmade) hd), if_neg hlong]
    · exact h.tree.get?_put_self (h.spot p) .directory (by simp [spot_of_splitLast h hnames])
  · rw [if_neg hnone] at hmade
    refine ⟨by simp [hmade], by simp [hmade], fun c _ => ?_⟩
    obtain ⟨n, hn⟩ := Option.ne_none_iff_exists'.1 hnone
    by_cases hdir : n = .directory
    · have hdp : h.directory p = .ok (h.spot p) := directory_eq_ok.2 ⟨hfound, hdir ▸ hn⟩
      rw [settle_of_directory hu hdp]
      exact .inl ⟨rfl, hdp⟩
    · refine .inr (.inr ⟨n, hdir, ?_⟩)
      rw [settle_host, hn]

theorem Settles.isSettled (hset : h.Settles p) (levels : Nat) :
    IsSettled p (makeUpTo levels p h) := by
  unfold makeUpTo
  split
  · next hm => exact hset.made _ hm
  · next hm => exact (hset.found hm).elim
  · next hm => exact hset.refused _ hm

theorem unspeakable?_eq_none : unspeakable? p = none ↔
    ∀ piece ∈ p.parts, piece.bytes? ≠ none ∧ .char '\x00' ∉ piece.points := by
  unfold unspeakable?
  split
  · next hb =>
    obtain ⟨piece, hp, hb⟩ := List.any_eq_true.1 hb
    exact iff_of_false (by simp) fun h => (h piece hp).1 (by simpa using hb)
  next hb =>
  split
  · next hn =>
    obtain ⟨piece, hp, hn⟩ := List.any_eq_true.1 hn
    exact iff_of_false (by simp) fun h => (h piece hp).2 (by simpa using hn)
  next hn =>
  simp only [List.any_eq_true, not_exists, not_and] at hb hn
  exact iff_of_true rfl fun piece hp => ⟨by simpa using hb piece hp, by simpa using hn piece hp⟩

theorem unspeakable?_parent (hu : unspeakable? p = none) : unspeakable? p.parent = none :=
  unspeakable?_eq_none.2 fun piece hp =>
    unspeakable?_eq_none.1 hu piece (List.dropLast_subset _ hp)

/-- A path is too long to be followed if the one above is. -/
theorem locate_tooLong_of_parent (hs : h.IsStraight p) (hstart : h.tree.get? (h.start p) ≠ none)
    (hl : h.locate true p.parent = .error .nameTooLong) :
    h.locate true p = .error .nameTooLong := by
  unfold locate at hl ⊢
  by_cases hpath : maxPath ≤ p.text.byteSize
  · rw [if_pos hpath]
  have hstart' : h.start p.parent = h.start p := rfl
  rw [if_neg hpath, hs.foothold, if_neg hstart]
  rw [if_neg fun h => hpath (maxPath_le_of_parent h), hs.parent.foothold, hstart',
    if_neg hstart] at hl
  obtain ⟨f, hf⟩ := exists_walkNames h.tree true maxLinks (h.start p) (p.parts.map entryName)
  obtain ⟨f', hf'⟩ :=
    exists_walkNames h.tree true maxLinks (h.start p) (p.parent.parts.map entryName)
  obtain ⟨more, hmore⟩ := (List.dropLast_prefix p.parts).map entryName
  have hw := hs.walk
  rw [hf]
  rw [hf'] at hl
  rw [← hmore] at hw ⊢
  exact walkNames_append_of_tooLong hw hl

/-- A directory that cannot be found for a path with room below it is missing, or its path is too
long. -/
theorem directory_error_of_hasRoom (hs : h.IsStraight p) (hr : h.HasRoom p) (hp : p.parts ≠ [])
    {c : Cause} (hd : h.directory p.parent = .error c) :
    c = .missing ∨ c = .nameTooLong ∧ h.locate true p.parent = .error .nameTooLong := by
  unfold directory at hd
  cases hl : h.locate true p.parent with
  | error c' =>
    rw [hl] at hd
    cases hd
    exact (locate_of_hasRoom hs.parent hr.parent hl).symm.imp And.left fun hc => ⟨hc, hc ▸ rfl⟩
  | ok place =>
    obtain ⟨rfl, -, -⟩ := eq_spot_of_locate hs.parent hl
    obtain ⟨name, -, hnames⟩ := exists_splitLast hp
    rw [hl] at hd
    simp only [bind, Except.bind, directoryAt] at hd
    rcases hr.2 _ (spot_parent_le h p) (by simp [spot_of_splitLast h hnames]) with hg | hg <;>
      rw [hg] at hd <;> cases hd
    exact .inl rfl

theorem makeOne_of_directory_error (hp : p.parts ≠ []) (hpath : ¬maxPath ≤ p.text.byteSize)
    {c : Cause} (hd : h.directory p.parent = .error c) : h.makeOne p = .error c := by
  obtain ⟨name, hlast, -⟩ := exists_splitLast hp
  simp [makeOne, hlast, hpath, hd, bind, Except.bind]

/-- The root and the current directory are there. -/
theorem isSettled_of_nil (levels : Nat) (hc : h.tree.IsClosed) (hs : h.IsStraight p)
    (hr : h.HasRoom p) (hu : unspeakable? p = none) (hp : p.parts = []) :
    IsSettled p (makeUpTo levels p h) := by
  have hspot : h.spot p = h.start p := by simp [spot, hp]
  have hpath : ¬maxPath ≤ p.text.byteSize := by
    rw [Path.text, hp]
    cases p.anchor <;> decide +kernel
  have hl : h.locate true p = .ok (h.spot p) :=
    locate_of_isOpen hs (isOpen_of_get? hc (by simp [hspot, hr.1])) (by simp [hr.1]) hpath
      (by simp [AreShort, hp])
  have hd : h.directory p = .ok (h.spot p) := directory_eq_ok.2 ⟨hl, hspot ▸ hr.1⟩
  have hmade : h.makeOne p = .error .present := by simp [makeOne, splitLast, hp]
  have hup : makeUpTo levels p h = (.ok (), h) := by
    cases levels <;> simp [makeUpTo, hmade, settle_of_directory hu hd]
  rw [hup]
  exact .inl ⟨rfl, hd⟩

/-- With room below, what was settled above a path is a directory, or the path is too long. -/
theorem IsSettled.directory_or_tooLong {r : Except Refusal Unit × Host} (hr : r.2.HasRoom p)
    (hp : p.parts ≠ []) (hset : IsSettled p.parent r) :
    (r.1 = .ok () ∧ ∃ place, r.2.directory p.parent = .ok place) ∨
      r.2.locate true p.parent = .error .nameTooLong := by
  rcases hset with ⟨hok, hd⟩ | hl | ⟨n, hn, hg⟩
  · exact .inl ⟨hok, _, hd⟩
  · exact .inr hl
  · obtain ⟨name, -, hnames⟩ := exists_splitLast hp
    rcases hr.2 _ (spot_parent_le _ p) (by simp [spot_of_splitLast _ hnames]) with hg' | hg'
    · rw [hg] at hg'
      cases hg'
    · rw [hg] at hg'
      exact (hn (Option.some.inj hg')).elim

theorem makeOne_tooLong_of_parent (hp : p.parts ≠ [])
    (hl : h.locate true p.parent = .error .nameTooLong) :
    h.makeOne p = .error .nameTooLong := by
  obtain ⟨name, hlast, -⟩ := exists_splitLast hp
  by_cases hpath : maxPath ≤ p.text.byteSize
  · simp [makeOne, hlast, hpath, bind, Except.bind]
  · have hd : h.directory p.parent = .error .nameTooLong := by
      simp [directory, hl, bind, Except.bind]
    exact makeOne_of_directory_error hp hpath hd

/-- A directory is settled where the one above is. -/
theorem IsSettled.settles (hc : h.tree.IsClosed) (hs : h.IsStraight p)
    (hu : unspeakable? p = none) (hr : h.HasRoom p) (hp : p.parts ≠ [])
    (hset : IsSettled p.parent (.ok (), h)) : h.Settles p := by
  rcases hset.directory_or_tooLong hr hp with ⟨-, place, hd⟩ | hl
  · exact settles_of_directory hc hs hu hp hd
  · exact settles_of_tooLong (makeOne_tooLong_of_parent hp hl)
      (locate_tooLong_of_parent hs (by simp [hr.1]) hl)

/-- If the one above could not be made, it is because the path is too long. -/
theorem IsSettled.of_parent {why : Refusal} (hs : h.IsStraight p) (hr : h.HasRoom p)
    (hp : p.parts ≠ []) (hset : IsSettled p.parent (.error why, h)) :
    IsSettled p (.error why, h) := by
  rcases hset.directory_or_tooLong hr hp with ⟨hok, -⟩ | hl
  · cases hok
  · exact .inr (.inl (locate_tooLong_of_parent hs (by simp [hr.1]) hl))

/-- Where there is room, making a directory with those above it gets to the end unless the path is
too long. -/
theorem isSettled_makeUpTo (levels : Nat) (hlevels : p.parts.length ≤ levels)
    (hc : h.tree.IsClosed) (hs : h.IsStraight p) (hu : unspeakable? p = none) (hr : h.HasRoom p) :
    IsSettled p (makeUpTo levels p h) := by
  induction levels generalizing p with
  | zero =>
    exact isSettled_of_nil 0 hc hs hr hu (List.length_eq_zero_iff.1 (Nat.le_zero.1 hlevels))
  | succ levels ih =>
    by_cases hp : p.parts = []
    · exact isSettled_of_nil _ hc hs hr hu hp
    by_cases hpath : maxPath ≤ p.text.byteSize
    · obtain ⟨name, hlast, -⟩ := exists_splitLast hp
      have hmade : h.makeOne p = .error .nameTooLong := by
        simp [makeOne, hlast, hpath, bind, Except.bind]
      exact (settles_of_tooLong hmade (by rw [locate, if_pos hpath])).isSettled _
    cases hd : h.directory p.parent with
    | ok place => exact (settles_of_directory hc hs hu hp hd).isSettled _
    | error c =>
      rcases directory_error_of_hasRoom hs hr hp hd with rfl | ⟨rfl, hl⟩
      · -- the directory above is made first
        have hlevels' : p.parent.parts.length ≤ levels := by simpa [Path.parent] using hlevels
        have hup := ih hlevels' hs.parent (unspeakable?_parent hu) hr.parent
        have hg := makeUpTo_grows levels hs.parent
        rw [makeUpTo, makeOne_of_directory_error hp hpath hd]
        rcases hmake : makeUpTo levels p.parent h with ⟨why | _, m⟩ <;> rw [hmake] at hup hg
        · exact hup.of_parent (hg.isStraight hs) (hg.hasRoom hr) hp
        · have hset := hup.settles (hg.closed hc) (hg.isStraight hs) hu (hg.hasRoom hr) hp
          dsimp only
          split
          · next hm => exact hset.made _ hm
          · next hm => exact (hset.found hm).elim
          · next hm => exact hset.refused _ hm
      · have hlong := locate_tooLong_of_parent hs (by simp [hr.1]) hl
        exact (settles_of_tooLong (makeOne_tooLong_of_parent hp hl) hlong).isSettled _

end

end FatInstall.Host
