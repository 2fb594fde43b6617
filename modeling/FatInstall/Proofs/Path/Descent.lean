import FatInstall.Proofs.Path.Steps
import FatInstall.Settings.Basic

/-!
# Where a path leads from a directory

A path that begins with the pieces of a directory leads down from there, and its `..` lead up
again. By its text alone it stays in the directory unless more of them lead up than down; a
directory whose last piece is `..`, and the current directory, have no piece to take back, so that
there `..` leads out for good.

* `Path.descend`: the pieces of a path, each `..` taken against the piece before it.
* `Path.Holds`: a path leads to a directory or to a place below it.
* `Ascends`: somewhere on their way the pieces lead up more often than down.
* `holds_of_not_ascends`, `not_holds_here`: pieces that do not ascend stay in every directory, and
  pieces that do lead out of the current directory.
-/

namespace FatInstall

/-! ## Paths and texts -/

theorem Path.eq_of {p q : Path} (ha : p.anchor = q.anchor) (hp : p.parts = q.parts) : p = q := by
  cases p
  cases q
  cases ha
  cases hp
  rfl

theorem isSlash_eq_false {p : CodePoint} (h : p ≠ slash) : Text.isSlash p = false := by
  cases hp : Text.isSlash p with
  | false => rfl
  | true => exact (h (eq_slash_of_isSlash hp)).elim

/-- Steps with slashes between them do not begin with a slash. -/
theorem takeWhile_intercalate {ps : List Text}
    (h : ∀ t ∈ ps, Path.isStep t = true ∧ slash ∉ t.points) :
    (Text.intercalate "/" ps).points.takeWhile Text.isSlash = [] := by
  cases ps with
  | nil => rfl
  | cons p ps =>
    obtain ⟨hp, hs⟩ := h p (.head _)
    obtain ⟨xs, hxs⟩ := exists_intercalate_cons p ps
    rw [hxs]
    cases hpoints : p.points with
    | nil => simp [Path.isStep, Text.isEmpty, hpoints] at hp
    | cons c cs =>
      have hc : c ≠ slash := by
        rintro rfl
        simp [hpoints] at hs
      simp [isSlash_eq_false hc]

/-- A clean path that is written down and read again is the same path. -/
theorem Path.ofText_text {p : Path} (hp : p.IsClean) : Path.ofText p.text = p := by
  refine Path.eq_of ?_ (Path.steps_text hp)
  unfold Path.ofText Path.text
  split
  · next hd =>
    rw [hd.1]
    rfl
  · have hslash : ∀ c ∈ (anchorText p.anchor : Text).points, Text.isSlash c = true := by
      cases p.anchor <;> decide
    change anchorOfSlashes (List.takeWhile Text.isSlash
      ((anchorText p.anchor : Text).points ++ (Text.intercalate "/" p.parts).points)).length = _
    rw [List.takeWhile_append_of_pos hslash, takeWhile_intercalate hp, List.append_nil]
    cases p.anchor <;> rfl

theorem Path.isAbsolute_ofText (t : Text) :
    (Path.ofText t).isAbsolute = (t.points.head?.map Text.isSlash).getD false := by
  unfold Path.ofText
  cases t.points with
  | nil => rfl
  | cons c cs =>
    cases hc : Text.isSlash c with
    | false => simp [hc, anchorOfSlashes, isAbsolute]
    | true =>
      simp only [List.takeWhile_cons_of_pos hc, List.length_cons, List.head?_cons,
        Option.map_some, Option.getD_some, hc]
      unfold isAbsolute anchorOfSlashes
      split
      · next h => cases h
      · rfl
      · rfl

theorem Path.text_ne_nil {p : Path} (hp : p.IsClean) : p.text.points ≠ [] := by
  intro h
  have ht : p.text = ⟨[]⟩ := congrArg Text.mk h
  have hnil := Path.ofText_text hp
  rw [ht] at hnil
  subst hnil
  cases h

/-- What is written after a path does not change whether it begins at the root. -/
theorem Path.isAbsolute_text_append {p : Path} (hp : p.IsClean) (t : Text) :
    (Path.ofText (p.text ++ t)).isAbsolute = p.isAbsolute := by
  obtain ⟨c, cs, hc⟩ := List.exists_cons_of_ne_nil (Path.text_ne_nil hp)
  have hhead : (p.text ++ t).points.head? = p.text.points.head? := by
    change (p.text.points ++ t.points).head? = _
    rw [hc]
    rfl
  rw [Path.isAbsolute_ofText, hhead, ← Path.isAbsolute_ofText, Path.ofText_text hp]

/-- The normal form of a directory inside the image has the steps of the text it comes from. -/
theorem steps_rooted (dest : Text) : steps (Settings.rooted dest) = steps dest :=
  (steps_cons_slash _).trans (steps_stripSlashes dest)

/-! ## Leading up and down -/

namespace Path

/-- The pieces of the place above, the last one first. There is none to take back at the start of a
path and after a `..`; only the root is its own place above. -/
def ascend (fromRoot : Bool) : List Text → List Text
  | [] => if fromRoot then [] else [parentName]
  | piece :: pieces => if piece = parentName then parentName :: piece :: pieces else pieces

/-- The pieces of a path that goes on from others, the last one first, with each `..` taken against
the piece before it. -/
def descend (fromRoot : Bool) : List Text → List Text → List Text
  | here, [] => here
  | here, piece :: rest =>
    descend fromRoot (if piece = parentName then ascend fromRoot here else piece :: here) rest

/-- Does the path, with each `..` after the pieces of the directory taken against the piece before
it, lead to the directory or to a place below it? -/
def Holds (dir p : Path) : Prop :=
  p.isAbsolute = dir.isAbsolute ∧ ∃ rest names, p.parts = dir.parts ++ rest ∧
    descend dir.isAbsolute dir.parts.reverse rest = names ++ dir.parts.reverse ∧
      parentName ∉ names

end Path

/-- Do the pieces lead up more often than down, somewhere on their way? There more than half of the
pieces are `..`. -/
def Ascends (pieces : List Text) : Prop :=
  ∃ way, way <+: pieces ∧ way.length < 2 * way.count Path.parentName

open FatInstall.Path

section

variable {fromRoot : Bool} {here pieces : List Text}

/-- Pieces that lead up at most as often as down, where the given names lead down before them, keep
to what is above these names. -/
theorem descend_append (names : List Text) (hn : parentName ∉ names)
    (h : ∀ way, way <+: pieces → 2 * way.count parentName ≤ way.length + names.length) :
    ∃ names', parentName ∉ names' ∧ descend fromRoot (names ++ here) pieces = names' ++ here := by
  induction pieces generalizing names with
  | nil => exact ⟨names, hn, rfl⟩
  | cons piece pieces ih =>
    by_cases hp : piece = parentName
    · subst hp
      cases names with
      | nil =>
        have hway := h [parentName] (by simp)
        simp at hway
      | cons name names =>
        have hname : name ≠ parentName := fun he => hn (he ▸ .head _)
        obtain ⟨names', hn', he⟩ := ih names (fun hm => hn (.tail _ hm)) fun way hw => by
          have hway := h (parentName :: way) (List.cons_prefix_cons.2 ⟨rfl, hw⟩)
          simp only [List.count_cons_self, List.length_cons] at hway
          omega
        exact ⟨names', hn', by simpa [descend, ascend, hname] using he⟩
    · have hcons : parentName ∉ piece :: names :=
        fun hm => (List.mem_cons.1 hm).elim (fun he => hp he.symm) hn
      obtain ⟨names', hn', he⟩ := ih _ hcons fun way hw => by
        have hway := h (piece :: way) (List.cons_prefix_cons.2 ⟨rfl, hw⟩)
        simp only [List.count_cons_of_ne hp, List.length_cons] at hway ⊢
        omega
      exact ⟨names', hn', by simpa [descend, hp] using he⟩

/-- From the current directory, what leads out stays out: the last piece taken back is a `..`. -/
theorem parentName_mem_descend (names : List Text) :
    parentName ∈ descend false (names ++ [parentName]) pieces := by
  induction pieces generalizing names with
  | nil => simp [descend]
  | cons piece pieces ih =>
    rw [descend]
    split
    · cases names with
      | nil => exact ih [parentName]
      | cons name names =>
        rw [List.cons_append, ascend]
        split
        · exact ih (parentName :: name :: names)
        · exact ih names
    · exact ih (piece :: names)

/-- Pieces that lead up more often than down after a descent by the given names lead out. -/
theorem parentName_mem_of_ascends {names way : List Text} (hn : parentName ∉ names)
    (hw : way <+: pieces) (h : way.length + names.length < 2 * way.count parentName) :
    parentName ∈ descend false names pieces := by
  induction way generalizing names pieces with
  | nil => simp at h
  | cons piece way ih =>
    cases pieces with
    | nil => simp at hw
    | cons piece' pieces =>
      obtain ⟨rfl, hway⟩ := List.cons_prefix_cons.1 hw
      rw [descend]
      by_cases hp : piece = parentName
      · subst hp
        simp only [List.count_cons_self, List.length_cons] at h
        rw [if_pos rfl]
        cases names with
        | nil => exact parentName_mem_descend []
        | cons name names =>
          have hname : name ≠ parentName := fun he => hn (he ▸ .head _)
          rw [ascend, if_neg hname]
          refine ih (fun hm => hn (.tail _ hm)) hway ?_
          simp only [List.length_cons] at h
          omega
      · simp only [List.count_cons_of_ne hp, List.length_cons] at h
        rw [if_neg hp]
        refine ih (fun hm => (List.mem_cons.1 hm).elim (fun he => hp he.symm) hn) hway ?_
        simp only [List.length_cons]
        omega

end

/-- A path that goes on from a directory with pieces that do not ascend stays in it. -/
theorem holds_of_not_ascends {dir p : Path} {pieces : List Text}
    (ha : p.isAbsolute = dir.isAbsolute) (hp : p.parts = dir.parts ++ pieces)
    (h : ¬Ascends pieces) : dir.Holds p := by
  have hdepth : ∀ way, way <+: pieces → 2 * way.count parentName ≤ way.length + 0 :=
    fun way hw => Nat.le_of_not_lt fun hlt => h ⟨way, hw, hlt⟩
  obtain ⟨names, hn, he⟩ := descend_append [] List.not_mem_nil hdepth
  exact ⟨ha, pieces, names, hp, he, hn⟩

/-- The current directory. -/
def Path.here : Path := ⟨.relative, []⟩

/-- A path from the current directory with pieces that ascend leads out of it. -/
theorem not_holds_here {p : Path} (h : Ascends p.parts) : ¬Path.here.Holds p := by
  rintro ⟨-, rest, names, hparts, he, hn⟩
  obtain ⟨way, hw, hlt⟩ := h
  have hrest : p.parts = rest := hparts
  rw [Path.here, List.reverse_nil, List.append_nil] at he
  exact hn (he ▸ parentName_mem_of_ascends (by simp) (hrest ▸ hw) hlt)

end FatInstall
