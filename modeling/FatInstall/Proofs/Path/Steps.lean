import FatInstall.Path

/-!
# The steps of a path

Read from the place it is taken from, a text is a list of steps: its pieces between slashes that
lead somewhere. Slashes at the edges, repeated slashes and single dots make no difference.

* `steps`: the steps of a text.
* `keptPieces_join`, `keptPieces_intercalate`: a slash is a boundary of pieces, and pieces with
  slashes between them are read back, whichever of them are kept.
* `Path.steps_text`: writing a path down and reading it again gives its pieces.
-/

namespace FatInstall

/-- The steps of a text that is read as a path. -/
def steps (t : Text) : List Text := (slashPieces t).filter Path.isStep

/-! ## Splitting -/

section

variable {α : Type} [DecidableEq α] {sep : α}

theorem splitAt_ne_nil (xs : List α) : splitAt sep xs ≠ [] := by
  cases xs with
  | nil => simp [splitAt]
  | cons x xs =>
    rw [splitAt]
    split
    · simp
    · split <;> simp

theorem splitAt_append (xs ys : List α) :
    splitAt sep (xs ++ sep :: ys) = splitAt sep xs ++ splitAt sep ys := by
  induction xs with
  | nil => simp [splitAt]
  | cons x xs ih =>
    by_cases hx : x = sep
    · simp [splitAt, hx, ih]
    · simp only [List.cons_append, splitAt, hx, if_false, ih]
      cases hs : splitAt sep xs with
      | nil => exact (splitAt_ne_nil xs hs).elim
      | cons p ps => rfl

theorem splitAt_of_not_mem {xs : List α} (h : sep ∉ xs) : splitAt sep xs = [xs] := by
  induction xs with
  | nil => rfl
  | cons x xs ih =>
    rw [List.mem_cons, not_or] at h
    have hx : x ≠ sep := fun he => h.1 he.symm
    simp [splitAt, hx, ih h.2]

theorem not_mem_of_mem_splitAt {xs p : List α} (h : p ∈ splitAt sep xs) : sep ∉ p := by
  induction xs generalizing p with
  | nil =>
    cases List.mem_singleton.1 h
    simp
  | cons x xs ih =>
    rw [splitAt] at h
    split at h
    · rcases List.mem_cons.1 h with rfl | h
      · simp
      · exact ih h
    · next hx =>
      cases hs : splitAt sep xs with
      | nil => exact (splitAt_ne_nil xs hs).elim
      | cons q qs =>
        simp only [hs, List.mem_cons] at h ih
        rcases h with rfl | h
        · rw [List.mem_cons, not_or]
          exact ⟨fun he => hx he.symm, ih (.inl rfl)⟩
        · exact ih (.inr h)

end

/-! ## Pieces that are kept -/

/-- The code point between the pieces of a path. -/
def slash : CodePoint := .char '/'

theorem eq_slash_of_isSlash {p : CodePoint} (h : Text.isSlash p = true) : p = slash := by
  simpa [Text.isSlash, slash] using h

theorem trimEnd_cons {α : Type} {p : α → Bool} {x : α} (hx : p x = false) (xs : List α) :
    Text.trimEnd p (x :: xs) = x :: Text.trimEnd p xs := by
  simp only [Text.trimEnd, List.reverse_cons, List.dropWhile_append]
  split
  · next he => simp [hx, List.isEmpty_iff.1 he]
  · simp

theorem intercalate_cons_cons (s t : Text) (ps : List Text) :
    Text.intercalate "/" (s :: t :: ps) =
      ⟨s.points ++ slash :: (Text.intercalate "/" (t :: ps)).points⟩ := by
  simp [Text.intercalate, List.intercalate, slash]
  rfl

/-- Pieces with slashes between them begin with the first one. -/
theorem exists_intercalate_cons (p : Text) (ps : List Text) :
    ∃ xs, (Text.intercalate "/" (p :: ps)).points = p.points ++ xs := by
  cases ps with
  | nil => exact ⟨[], by simp [Text.intercalate, List.intercalate]⟩
  | cons q qs => exact ⟨_, by rw [intercalate_cons_cons]⟩

section

variable {keep : Text → Bool}

/-- The pieces of a text between slashes that are kept. -/
def keptPieces (keep : Text → Bool) (t : Text) : List Text := (slashPieces t).filter keep

/-- A slash between two texts is a boundary of pieces. -/
theorem keptPieces_join (keep : Text → Bool) (xs ys : List CodePoint) :
    keptPieces keep ⟨xs ++ slash :: ys⟩ = keptPieces keep ⟨xs⟩ ++ keptPieces keep ⟨ys⟩ := by
  simp only [keptPieces, slashPieces, slash, splitAt_append, List.map_append, List.filter_append]

/-- A text without slashes is one piece, if it is kept. -/
theorem keptPieces_piece (keep : Text → Bool) {t : Text} (h : slash ∉ t.points) :
    keptPieces keep t = [t].filter keep := by
  have hs : splitAt (.char '/') t.points = [t.points] := splitAt_of_not_mem h
  rw [keptPieces, slashPieces, hs]
  rfl

variable (hk : keep .empty = false)
include hk

theorem keptPieces_nil : keptPieces keep ⟨[]⟩ = [] := by
  rw [keptPieces_piece keep List.not_mem_nil]
  exact List.filter_eq_nil_iff.2 fun t ht => by
    cases List.mem_singleton.1 ht
    exact Bool.not_eq_true _ ▸ hk

theorem keptPieces_cons_slash (xs : List CodePoint) :
    keptPieces keep ⟨slash :: xs⟩ = keptPieces keep ⟨xs⟩ := by
  rw [← List.nil_append (slash :: xs), keptPieces_join, keptPieces_nil hk, List.nil_append]

theorem keptPieces_append_slash (xs : List CodePoint) :
    keptPieces keep ⟨xs ++ [slash]⟩ = keptPieces keep ⟨xs⟩ := by
  rw [keptPieces_join, keptPieces_nil hk, List.append_nil]

theorem keptPieces_dropWhile (xs : List CodePoint) :
    keptPieces keep ⟨xs.dropWhile Text.isSlash⟩ = keptPieces keep ⟨xs⟩ := by
  induction xs with
  | nil => rfl
  | cons x xs ih =>
    cases hx : Text.isSlash x with
    | false => simp [hx]
    | true =>
      obtain rfl := eq_slash_of_isSlash hx
      simp [hx, ih, keptPieces_cons_slash hk]

theorem keptPieces_trimEnd (xs : List CodePoint) :
    keptPieces keep ⟨Text.trimEnd Text.isSlash xs⟩ = keptPieces keep ⟨xs⟩ := by
  rw [← List.reverse_reverse xs]
  generalize xs.reverse = ys
  induction ys with
  | nil => rfl
  | cons y ys ih =>
    cases hy : Text.isSlash y with
    | false => simp [Text.trimEnd, hy]
    | true =>
      obtain rfl := eq_slash_of_isSlash hy
      have he : Text.trimEnd Text.isSlash (slash :: ys).reverse =
          Text.trimEnd Text.isSlash ys.reverse := by simp [Text.trimEnd, hy]
      rw [he, ih, List.reverse_cons, keptPieces_append_slash hk]

theorem keptPieces_stripSlashes (t : Text) : keptPieces keep t.stripSlashes = keptPieces keep t :=
  (keptPieces_trimEnd hk _).trans (keptPieces_dropWhile hk _)

/-- Of pieces without slashes, with slashes between them, those are kept that are to be. -/
theorem keptPieces_intercalate {ps : List Text} (h : ∀ p ∈ ps, slash ∉ p.points) :
    keptPieces keep (Text.intercalate "/" ps) = ps.filter keep := by
  induction ps with
  | nil => exact keptPieces_nil hk
  | cons p ps ih =>
    have hp := h p (.head _)
    cases ps with
    | nil =>
      have he : Text.intercalate "/" [p] = p := by simp [Text.intercalate, List.intercalate]
      rw [he, keptPieces_piece keep hp]
    | cons q qs =>
      rw [intercalate_cons_cons, keptPieces_join, keptPieces_piece keep hp,
        ih fun r hr => h r (List.mem_cons_of_mem _ hr), ← List.filter_append]
      rfl

end

/-! ## Steps -/

/-- A slash between two texts is a step boundary. -/
theorem steps_join (xs ys : List CodePoint) :
    steps ⟨xs ++ slash :: ys⟩ = steps ⟨xs⟩ ++ steps ⟨ys⟩ :=
  keptPieces_join Path.isStep xs ys

@[simp] theorem steps_cons_slash (xs : List CodePoint) : steps ⟨slash :: xs⟩ = steps ⟨xs⟩ :=
  steps_join [] xs

@[simp] theorem steps_append_slash (xs : List CodePoint) : steps ⟨xs ++ [slash]⟩ = steps ⟨xs⟩ :=
  keptPieces_append_slash rfl xs

theorem steps_trimEnd (xs : List CodePoint) :
    steps ⟨Text.trimEnd Text.isSlash xs⟩ = steps ⟨xs⟩ :=
  keptPieces_trimEnd rfl xs

@[simp] theorem steps_stripSlashesStart (t : Text) : steps t.stripSlashesStart = steps t :=
  keptPieces_dropWhile rfl t.points

@[simp] theorem steps_stripSlashes (t : Text) : steps t.stripSlashes = steps t :=
  keptPieces_stripSlashes rfl t

/-- Pieces without slashes, with slashes between them, have as steps those that lead somewhere. -/
theorem steps_intercalate {ps : List Text} (h : ∀ p ∈ ps, slash ∉ p.points) :
    steps (Text.intercalate "/" ps) = ps.filter Path.isStep :=
  keptPieces_intercalate rfl h

/-! ## Paths -/

/-- Are the pieces of the path steps without slashes? -/
def Path.IsClean (p : Path) : Prop := ∀ t ∈ p.parts, Path.isStep t = true ∧ slash ∉ t.points

theorem slash_not_mem_of_mem_slashPieces {t piece : Text} (h : piece ∈ slashPieces t) :
    slash ∉ piece.points := by
  obtain ⟨xs, hx, rfl⟩ := List.mem_map.1 h
  exact not_mem_of_mem_splitAt hx

/-- A path that is read from a text is clean. -/
theorem Path.isClean_ofText (t : Text) : (Path.ofText t).IsClean := by
  intro piece hp
  obtain ⟨hm, hs⟩ := List.mem_filter.1 hp
  exact ⟨hs, slash_not_mem_of_mem_slashPieces hm⟩

theorem Path.IsClean.join {p q : Path} (hp : p.IsClean) (hq : q.IsClean) :
    (p.join q).IsClean := by
  unfold Path.join
  split
  · exact hq
  · intro piece hm
    exact (List.mem_append.1 hm).elim (hp piece) (hq piece)

/-- The steps of a clean path that is written down are its pieces. -/
theorem Path.steps_text {p : Path} (hp : p.IsClean) : steps p.text = p.parts := by
  have hparts : steps (Text.intercalate "/" p.parts) = p.parts := by
    rw [steps_intercalate fun t ht => (hp t ht).2]
    exact List.filter_eq_self.2 fun t ht => (hp t ht).1
  unfold Path.text
  split
  · next hd =>
    rw [hd.2]
    rfl
  · cases p.anchor with
    | relative => exact hparts
    | root => exact (steps_cons_slash _).trans hparts
    | doubleRoot => exact (steps_cons_slash _).trans ((steps_cons_slash _).trans hparts)

end FatInstall
