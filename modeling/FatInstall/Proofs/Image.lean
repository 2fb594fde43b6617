import FatInstall.Text.Basic

/-!
# FAT images

An image is a tree of directories and files: what stands at each path, where everything but the
root stands in a directory. The operations are those that the tools for images do.

* `makeOne`, `makeAll`, `write`: one directory is made, or all that are missing on a way, or a file
  is written; each may fail, and then nothing changes.
* `install`: what an update is to do to an image, said at once.
* `foldl_makeLevel`: making each directory on a way, one after the other and whatever becomes of
  it, makes all that are missing, or nothing if a file is in the way.
* `write_madeSo`: writing the file after that installs it.
-/

namespace FatInstall

/-- What stands at a path of an image. -/
inductive Image.Entry
  | directory
  | file (content : List UInt8)
  deriving DecidableEq, Repr

/-- A FAT image. -/
@[ext] structure Image where
  get? : List Text → Option Image.Entry
  root : get? [] = some .directory
  closed : ∀ dir name, get? (dir ++ [name]) ≠ none → get? dir = some .directory

namespace Image

/-- The image with nothing but its root. -/
def empty : Image where
  get? := fun p => if p = [] then some .directory else none
  root := rfl
  closed := by simp

variable (I : Image) {dir p q r : List Text} {name : Text} {content : List UInt8}

/-! ## Operations -/

/-- The image with another entry at a path that is no directory, in a directory that is there. -/
def set (p : List Text) (e : Entry) (hp : p ≠ []) (hup : I.get? p.dropLast = some .directory)
    (hno : I.get? p ≠ some .directory) : Image where
  get? := fun q => if q = p then some e else I.get? q
  root := by rw [if_neg (Ne.symm hp), I.root]
  closed := by
    intro d n hne
    by_cases hd : d ++ [n] = p
    · obtain rfl : d = p.dropLast := by simp [← hd]
      rw [if_neg (fun h : p.dropLast = p => hno (h ▸ hup)), hup]
    · rw [if_neg hd] at hne
      have hdir := I.closed d n hne
      rw [if_neg (fun h : d = p => hno (h ▸ hdir)), hdir]

/-- Makes one directory, which is not there yet, in one that is. -/
def makeOne (p : List Text) : Option Image :=
  if h : p ≠ [] ∧ I.get? p = none ∧ I.get? p.dropLast = some .directory then
    some (I.set p .directory h.1 h.2.2 (by simp [h.2.1]))
  else none

/-- Makes one directory, if it can be made. -/
def makeLevel (p : List Text) : Image := (I.makeOne p).getD I

/-- Does a file stand at the path? -/
def isFile (p : List Text) : Bool :=
  match I.get? p with
  | some (.file _) => true
  | _ => false

/-- Is there a file on the way to a directory, or in its place? -/
def HasFileOn (dir : List Text) : Prop := ∃ q, q <+: dir ∧ I.isFile q

instance : Decidable (I.HasFileOn dir) :=
  decidable_of_iff ((List.range (dir.length + 1)).any fun i => I.isFile (dir.take i)) <| by
    rw [List.any_eq_true]
    constructor
    · rintro ⟨i, -, h⟩
      exact ⟨_, List.take_prefix i dir, h⟩
    · rintro ⟨q, hq, h⟩
      refine ⟨q.length, List.mem_range.2 (Nat.lt_succ_of_le hq.length_le), ?_⟩
      rwa [← List.prefix_iff_eq_take.1 hq]

/-- The image with a directory and those on the way to it. -/
def withDirectory (dir : List Text) : Image where
  get? := fun q => if q <+: dir then some .directory else I.get? q
  root := by simp
  closed := by
    intro d n hne
    by_cases hd : d <+: dir
    · rw [if_pos hd]
    · have hdn : ¬(d ++ [n]) <+: dir := fun h => hd ((List.prefix_append d [n]).trans h)
      rw [if_neg hdn] at hne
      rw [if_neg hd, I.closed d n hne]

/-- Makes a directory and those that are missing on the way to it, unless there is a file. -/
def makeAll (dir : List Text) : Option Image :=
  if I.HasFileOn dir then none else some (I.withDirectory dir)

/-- Writes a file into a directory that is there, unless its name is the one of a directory. -/
def write (dir : List Text) (name : Text) (content : List UInt8) : Option Image :=
  if h : I.get? dir = some .directory ∧ I.get? (dir ++ [name]) ≠ some .directory then
    some (I.set (dir ++ [name]) (.file content) (by simp) (by simpa using h.1) h.2)
  else none

variable {I}

/-! ## Closure -/

/-- Above everything there are directories. -/
theorem get?_above (hq : I.get? q ≠ none) (hp : p <+: q) (hne : p ≠ q) :
    I.get? p = some .directory := by
  obtain ⟨t, rfl⟩ := hp
  rw [← List.reverse_reverse t] at hq hne
  generalize t.reverse = s at hq hne
  induction s with
  | nil => simp at hne
  | cons x s ih =>
    rw [List.reverse_cons, ← List.append_assoc] at hq
    have hdir := I.closed _ _ hq
    by_cases hs : s = []
    · rwa [hs, List.reverse_nil, List.append_nil] at hdir
    · exact ih (by simp [hdir]) (by simpa using hs)

theorem isFile_eq_true : I.isFile p ↔ ∃ c, I.get? p = some (.file c) := by
  unfold isFile
  split
  · next c h => simp [h]
  · next h =>
    simp only [Bool.false_eq_true, false_iff, not_exists]
    exact h

theorem not_hasFileOn (h : I.get? dir = some .directory) : ¬I.HasFileOn dir := by
  rintro ⟨q, hq, hf⟩
  obtain ⟨c, hc⟩ := isFile_eq_true.1 hf
  by_cases he : q = dir
  · subst he
    cases h.symm.trans hc
  · cases (get?_above (by simp [h]) hq he).symm.trans hc

/-- A directory that is there needs nothing made. -/
theorem withDirectory_eq_self (h : I.get? dir = some .directory) : I.withDirectory dir = I := by
  ext1
  funext q
  change (if q <+: dir then _ else _) = _
  split
  · next hq =>
    by_cases he : q = dir
    · rw [he, h]
    · rw [get?_above (by simp [h]) hq he]
  · rfl

theorem withDirectory_get? (I : Image) (dir q : List Text) :
    (I.withDirectory dir).get? q = if q <+: dir then some .directory else I.get? q := rfl

theorem withDirectory_below (I : Image) (dir : List Text) (name : Text) :
    (I.withDirectory dir).get? (dir ++ [name]) = I.get? (dir ++ [name]) :=
  if_neg fun hp => absurd hp.length_le (by simp)

theorem withDirectory_there (I : Image) (dir : List Text) :
    (I.withDirectory dir).get? dir = some .directory := if_pos (List.prefix_refl dir)

theorem set_get? {e : Entry} {hp : p ≠ []} {hup : I.get? p.dropLast = some .directory}
    {hno : I.get? p ≠ some .directory} (q : List Text) :
    (I.set p e hp hup hno).get? q = if q = p then some e else I.get? q := rfl

/-! ## Installing a file -/

/-- The image with a file in a directory, and nothing else changed but the directories that are
missing on the way. There is none if a file stands on the way, or a directory in the file's
place. -/
def install (I : Image) (dir : List Text) (name : Text) (content : List UInt8) : Option Image :=
  if h : ¬I.HasFileOn dir ∧ I.get? (dir ++ [name]) ≠ some .directory then
    some ((I.withDirectory dir).set (dir ++ [name]) (.file content) (by simp)
      (by simpa using I.withDirectory_there dir) (by rw [I.withDirectory_below]; exact h.2))
  else none

theorem install_eq_none : I.install dir name content = none ↔
    I.HasFileOn dir ∨ I.get? (dir ++ [name]) = some .directory := by
  unfold install
  split
  · next h =>
    refine iff_of_false (by simp) ?_
    rintro (hf | hd)
    · exact h.1 hf
    · exact h.2 hd
  · next h =>
    refine iff_of_true rfl (Classical.byContradiction fun hn => h ?_)
    exact ⟨fun hf => hn (.inl hf), fun hd => hn (.inr hd)⟩

/-- What is in an image with a file installed. -/
theorem get?_install {K : Image} (h : I.install dir name content = some K) (q : List Text) :
    K.get? q = if q = dir ++ [name] then some (.file content)
      else if q <+: dir then some .directory else I.get? q := by
  unfold install at h
  split at h
  · cases h
    rfl
  · cases h

/-! ## Making directories one by one -/

theorem makeOne_eq_none_of_present (h : I.get? p ≠ none) : I.makeOne p = none :=
  dif_neg fun hm => h hm.2.1

theorem makeOne_eq_none_of_hasFileOn (h : I.HasFileOn p) : I.makeOne p = none := by
  obtain ⟨q, hq, hf⟩ := h
  obtain ⟨c, hc⟩ := isFile_eq_true.1 hf
  refine dif_neg fun ⟨hp, hnone, hup⟩ => ?_
  have hne : q ≠ p := by
    rintro rfl
    cases hnone.symm.trans hc
  -- the file stands above the directory to make, which is then in no directory
  refine not_hasFileOn hup ⟨q, ?_, hf⟩
  obtain ⟨t, rfl⟩ := hq
  have ht : t ≠ [] := fun h => hne (by simp [h])
  rw [List.dropLast_append_of_ne_nil ht]
  exact List.prefix_append ..

theorem HasFileOn.mono (h : I.HasFileOn p) (hpq : p <+: q) : I.HasFileOn q := by
  obtain ⟨r, hr, hf⟩ := h
  exact ⟨r, hr.trans hpq, hf⟩

/-- The directories on a way that are made so far. -/
def madeSo (I : Image) (dir : List Text) : Image := (I.makeAll dir).getD I

theorem madeSo_of_hasFileOn (h : I.HasFileOn dir) : I.madeSo dir = I := by
  simp [madeSo, makeAll, h]

theorem madeSo_of_not (h : ¬I.HasFileOn dir) : I.madeSo dir = I.withDirectory dir := by
  simp [madeSo, makeAll, h]

/-- A directory that was made is not made again. -/
theorem makeLevel_self (I : Image) (dir : List Text) :
    (I.madeSo dir).makeLevel dir = I.madeSo dir := by
  unfold makeLevel
  by_cases h : I.HasFileOn dir
  · rw [madeSo_of_hasFileOn h, makeOne_eq_none_of_hasFileOn h]
    rfl
  · rw [madeSo_of_not h, makeOne_eq_none_of_present]
    · rfl
    · simp [withDirectory_get?]

/-- The next directory on the way is made, unless a file is in the way. -/
theorem makeLevel_next (I : Image) (dir : List Text) (name : Text) :
    (I.madeSo dir).makeLevel (dir ++ [name]) = I.madeSo (dir ++ [name]) := by
  unfold makeLevel
  by_cases h : I.HasFileOn dir
  · have h' : I.HasFileOn (dir ++ [name]) := h.mono (List.prefix_append ..)
    rw [madeSo_of_hasFileOn h, madeSo_of_hasFileOn h', makeOne_eq_none_of_hasFileOn h']
    rfl
  rw [madeSo_of_not h]
  have hget := withDirectory_below I dir name
  cases hn : I.get? (dir ++ [name]) with
  | none =>
    have hno : ¬I.HasFileOn (dir ++ [name]) := by
      rintro ⟨q, hq, hf⟩
      rcases List.prefix_concat_iff.1 hq with rfl | hq
      · simp [isFile, hn] at hf
      · exact h ⟨q, hq, hf⟩
    have hup : (I.withDirectory dir).get? (dir ++ [name]).dropLast = some .directory := by
      simp [withDirectory_get?]
    rw [madeSo_of_not hno, makeOne, dif_pos ⟨by simp, hget.trans hn, hup⟩, Option.getD_some]
    ext1
    funext q
    rw [set_get?, withDirectory_get?, withDirectory_get?]
    by_cases hq : q = dir ++ [name]
    · rw [if_pos hq, if_pos (hq ▸ List.prefix_refl q)]
    · simp only [hq, if_false, List.prefix_concat_iff, false_or]
  | some e =>
    have hdir : I.get? dir = some .directory := I.closed dir name (by simp [hn])
    rw [makeOne_eq_none_of_present (by simp [hget, hn]), withDirectory_eq_self hdir]
    cases e with
    | directory => rw [madeSo_of_not (not_hasFileOn hn), withDirectory_eq_self hn]; rfl
    | file c =>
      rw [madeSo_of_hasFileOn ⟨_, List.prefix_refl _, isFile_eq_true.2 ⟨c, hn⟩⟩]
      rfl

/-- Making each directory on a way, one after the other and whatever becomes of it, makes all that
are missing, or nothing if a file is in the way. Pieces that are no steps make no difference. -/
theorem foldl_makeLevel (I : Image) (isStep : Text → Bool) (ps : List Text) :
    ((List.range ps.length).map fun i => (ps.take (i + 1)).filter isStep).foldl makeLevel I =
      I.madeSo (ps.filter isStep) := by
  have hk : ∀ k ≤ ps.length, ((List.range k).map fun i =>
      (ps.take (i + 1)).filter isStep).foldl makeLevel I =
        I.madeSo ((ps.take k).filter isStep) := by
    intro k hk
    induction k with
    | zero =>
      have hroot : I.madeSo [] = I := by
        rw [madeSo_of_not (not_hasFileOn I.root), withDirectory_eq_self I.root]
      simpa using hroot.symm
    | succ k ih =>
      rw [List.range_succ, List.map_append, List.foldl_append, ih (by omega)]
      have htake : ps.take (k + 1) = ps.take k ++ [ps[k]] := List.take_succ_eq_append_getElem hk
      rw [List.map_singleton, List.foldl_cons, List.foldl_nil, htake, List.filter_append]
      by_cases hs : isStep ps[k]
      · rw [List.filter_cons_of_pos hs, List.filter_nil, makeLevel_next]
      · rw [List.filter_cons_of_neg hs, List.filter_nil, List.append_nil, makeLevel_self]
  simpa using hk ps.length (Nat.le_refl _)

/-- Writing a file, once the directories on the way are made, installs it. -/
theorem write_madeSo (I : Image) (dir : List Text) (name : Text) (content : List UInt8) :
    (I.madeSo dir).write dir name content = I.install dir name content := by
  unfold install
  by_cases h : I.HasFileOn dir
  · rw [madeSo_of_hasFileOn h, dif_neg fun hn => hn.1 h]
    exact dif_neg fun hn => not_hasFileOn hn.1 h
  · rw [madeSo_of_not h, write]
    simp only [withDirectory_there, withDirectory_below, h, not_false_eq_true, true_and]

/-- If the file cannot be installed, no directory is missing that could be made. -/
theorem madeSo_of_install (h : I.install dir name content = none) : I.madeSo dir = I := by
  by_cases hf : I.HasFileOn dir
  · exact madeSo_of_hasFileOn hf
  · have hname : I.get? (dir ++ [name]) = some .directory := by
      refine Classical.byContradiction fun hne => ?_
      rw [install, dif_pos ⟨hf, hne⟩] at h
      cases h
    rw [madeSo_of_not hf, withDirectory_eq_self (I.closed dir name (by simp [hname]))]

end Image

end FatInstall
