import FatInstall.Host.Walk

/-!
# Asking for a regular file

A path leads to a regular file, or to something else or nowhere; the host tells these apart for
every path that it can be asked about. The one question that it refuses to answer is about a path
that is too long, or that leads over a name that is.

* `LeadsToFile`, `IsTooLong`: what the path is.
* `isFile_of_leadsToFile`, `isFile_of_isTooLong`, `isFile_of_not`: the three answers.
* `doesExist_of_node`, `doesExist_of_isTooLong`, `doesExist_of_not`: whether the path leads
  anywhere.
-/

namespace FatInstall.Host

/-- Does the path lead to a regular file? -/
def LeadsToFile (h : Host) (p : Path) : Prop :=
  unspeakable? p = none ∧ ∃ number content, h.node true p = .ok (.file number content)

/-- Is the path too long to be followed, or a name on its way? -/
def IsTooLong (h : Host) (p : Path) : Prop :=
  unspeakable? p = none ∧ h.node true p = .error .nameTooLong

/-! ## Why a walk fails -/

/-- Does the cause end a walk? -/
def Cause.EndsWalk (c : Cause) : Prop :=
  c = .missing ∨ c = .notDirectory ∨ c = .linkLoop ∨ c = .nameTooLong

section

variable {t : Tree} {last : Bool} {here : Place} {names : List Text} {c : Cause}

theorem directoryAt_endsWalk (h : directoryAt t here = .error c) : c.EndsWalk := by
  unfold directoryAt at h
  split at h
  · cases h
  · cases h
    exact .inr (.inl rfl)
  · cases h
    exact .inl rfl

theorem walkNames_endsWalk {follow : String → Place → List Text → Except Cause Place}
    (hf : ∀ target here rest c, follow target here rest = .error c → c.EndsWalk)
    (h : walkNames t last follow here names = .error c) : c.EndsWalk := by
  induction names generalizing here with
  | nil => cases h
  | cons name rest ih =>
    unfold walkNames at h
    split at h
    · exact ih h
    split at h
    · cases h
      exact .inr (.inr (.inr rfl))
    split at h
    · split at h
      · cases h
      · cases h
        exact .inl rfl
    · exact ih h
    · split at h
      · cases h
      · exact hf _ _ _ _ h
    · split at h
      · cases h
      · cases h
        exact .inr (.inl rfl)

theorem walk_endsWalk {links : Nat} (h : walk t last links here names = .error c) :
    c.EndsWalk := by
  induction links generalizing here names c with
  | zero =>
    refine walkNames_endsWalk ?_ h
    intro _ _ _ _ hc
    cases hc
    exact .inr (.inr (.inl rfl))
  | succ links ih =>
    refine walkNames_endsWalk ?_ h
    intro target here' rest c' hc
    simp only [bind, Except.bind] at hc
    split at hc
    · next hw =>
      cases hc
      exact ih hw
    · split at hc
      · exact directoryAt_endsWalk hc
      · cases hc

end

variable {h : Host} {p : Path}

theorem node_endsWalk {last : Bool} {c : Cause} (hn : h.node last p = .error c) :
    c.EndsWalk := by
  unfold node at hn
  rcases hl : h.locate last p with c' | place <;> rw [hl] at hn
  · cases hn
    unfold locate at hl
    split at hl
    · cases hl
      exact .inr (.inr (.inr rfl))
    split at hl
    · cases hl
      exact .inl rfl
    · exact walk_endsWalk hl
  · simp only [bind, Except.bind] at hn
    split at hn
    · cases hn
    · cases hn
      exact .inl rfl

/-! ## The answers -/

theorem isFile_of_leadsToFile (hp : h.LeadsToFile p) : h.isFile p = .ok true := by
  obtain ⟨hu, number, content, hn⟩ := hp
  simp [isFile, look, hu, hn, Except.map]

theorem isFile_of_isTooLong (hp : h.IsTooLong p) :
    h.isFile p = .error (.system .nameTooLong p.text) := by
  obtain ⟨hu, hn⟩ := hp
  simp [isFile, look, hu, hn, Except.map]

theorem isFile_of_not (hp : ¬h.LeadsToFile p) (hl : ¬h.IsTooLong p) : h.isFile p = .ok false := by
  unfold isFile look
  cases hu : unspeakable? p with
  | some why => simp [Except.map]
  | none =>
    rcases hn : h.node true p with c | n
    · rcases node_endsWalk hn with rfl | rfl | rfl | rfl
      · simp [Except.map]
      · simp [Except.map]
      · simp [Except.map]
      · exact (hl ⟨hu, hn⟩).elim
    · cases n with
      | file number content => exact (hp ⟨hu, number, content, hn⟩).elim
      | _ => simp [Except.map]

theorem doesExist_of_node {n : Node} (hu : unspeakable? p = none) (hn : h.node true p = .ok n) :
    h.doesExist p = .ok true := by
  simp [doesExist, look, hu, hn, Except.map]

theorem doesExist_of_isTooLong (hp : h.IsTooLong p) :
    h.doesExist p = .error (.system .nameTooLong p.text) := by
  obtain ⟨hu, hn⟩ := hp
  simp [doesExist, look, hu, hn, Except.map]

theorem doesExist_of_not (hp : unspeakable? p = none → ∀ n, h.node true p ≠ .ok n)
    (hl : ¬h.IsTooLong p) : h.doesExist p = .ok false := by
  unfold doesExist look
  cases hu : unspeakable? p with
  | some why => simp [Except.map]
  | none =>
    rcases hn : h.node true p with c | n
    · rcases node_endsWalk hn with rfl | rfl | rfl | rfl
      · simp [Except.map]
      · simp [Except.map]
      · simp [Except.map]
      · exact (hl ⟨hu, hn⟩).elim
    · exact (hp hu n hn).elim

theorem not_leadsToFile (hp : (h.isFile p).toOption ≠ some true) : ¬h.LeadsToFile p := by
  intro hfile
  exact hp (congrArg Except.toOption (isFile_of_leadsToFile hfile))

theorem not_isTooLong (hp : (h.isFile p).toOption ≠ none) : ¬h.IsTooLong p := by
  intro hlong
  exact hp (congrArg Except.toOption (isFile_of_isTooLong hlong))

end FatInstall.Host
