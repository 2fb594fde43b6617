import FatInstall.Command.Fault
import FatInstall.Proofs.Pasting
import Mathlib.Data.List.Basic

/-!
# What the message of a failed command tells

The message of a failed command tells its exit status, its words and what it wrote to standard
error, and nothing in these can be taken for something else. The status ends with the first bracket
that is closed. The words may hold line ends, but only between quotes, so that the first line end
outside quotes is where the words end.

* `joinWords_eq_of_append`: rendered words end before the first line end outside quotes.
* `CommandFault.message_eq_iff`: failed commands with one message differ at most in the blank edges
  of what they wrote.
-/

namespace FatInstall

namespace Shell

/-- The code point at the end of a line. -/
def lineEnd : CodePoint := .char '\n'

/-- Is the line over before the text: is the text empty, or does it begin with a line end? -/
def AtLineEnd (r : List CodePoint) : Prop := ∀ p r', r = p :: r' → p = lineEnd

/-- Rendered words are known by where they stand: at the start, with nothing or a new line after
them. -/
theorem joinWords_eq_of_append {ws vs : List (List CodePoint)} {r s : List CodePoint}
    (hr : AtLineEnd r) (hs : AtLineEnd s) (h : joinWords ws ++ r = joinWords vs ++ s) :
    joinWords ws = joinWords vs ∧ r = s := by
  -- if one of the two went on after the other, it would go on with a line end outside quotes
  have hstop : ∀ {us ts : List (List CodePoint)} {more rest : List CodePoint},
      joinWords ts = joinWords us ++ more → AtLineEnd (more ++ rest) → more = [] := by
    intro us ts more rest ht hrest
    cases more with
    | nil => rfl
    | cons p more =>
      obtain rfl : p = lineEnd := hrest p (more ++ rest) rfl
      obtain ⟨xs, hx, -⟩ := exposed_joinWords_append us (lineEnd :: more)
      have hmem : lineEnd ∈ exposed .none (joinWords ts) := by
        rw [ht, hx]
        exact List.mem_append_right xs (.head _)
      exact absurd (exposed_joinWords ts _ hmem) (by decide)
  rcases List.append_eq_append_iff.1 h with ⟨more, hv, rfl⟩ | ⟨more, hw, rfl⟩
  · obtain rfl := hstop hv hr
    rw [List.append_nil] at hv
    exact ⟨hv.symm, rfl⟩
  · obtain rfl := hstop hw hs
    rw [List.append_nil] at hw
    exact ⟨hw, rfl⟩

end Shell

namespace CommandFault

/-! ## The parts of a message -/

/-- The exit status as a message gives it. -/
def statusPoints (f : CommandFault) : List CodePoint := (toString f.status).toList.map .char

/-- What a message has after the words: nothing, or a new line with what the command wrote. -/
def saidPoints (f : CommandFault) : List CodePoint :=
  if (Text.strip f.stderr).isEmpty then [] else Shell.lineEnd :: (Text.strip f.stderr).points

theorem points_message (f : CommandFault) :
    f.message.points = ("Command failed (" : Text).points ++ (f.statusPoints ++ .char ')' ::
      ((": " : Text).points ++ ((Shell.render f.argv).points ++ f.saidPoints))) := by
  have hhead : (s!"Command failed ({f.status}): " : Text).points =
      ("Command failed (" : Text).points ++ (f.statusPoints ++ ("): " : Text).points) := by
    change (("Command failed (" ++ toString f.status ++ "): " : String).toList.map
      CodePoint.char) = _
    simp only [String.toList_append, List.map_append, List.append_assoc]
    rfl
  have hwords : f.message.points = (s!"Command failed ({f.status}): " : Text).points ++
      ((Shell.render f.argv).points ++ f.saidPoints) := by
    unfold message saidPoints
    dsimp only
    split
    · rw [Text.points_append, List.append_nil]
    · simp only [Text.points_append, List.append_assoc]
      rfl
  rw [hwords, hhead, List.append_assoc, List.append_assoc]
  rfl

/-- The exit status is what stands before the first bracket that is closed. -/
theorem takeWhile_statusPoints (f : CommandFault) (r : List CodePoint) :
    (f.statusPoints ++ .char ')' :: r).takeWhile (· ≠ .char ')') = f.statusPoints := by
  have hdigits : ∀ n : Nat, ')' ∉ n.repr.toList := by
    intro n hm
    rw [Nat.toList_repr] at hm
    exact absurd (Nat.isDigit_of_mem_toDigits (by decide) (by decide) hm) (by decide)
  have hstatus : ')' ∉ (toString f.status).toList := by
    rw [Int.toString_eq_repr, Int.repr_eq_if]
    split
    · exact hdigits _
    · simpa using hdigits _
  have hne : ∀ p ∈ f.statusPoints, decide (p ≠ .char ')') = true := by
    intro p hp
    obtain ⟨c, hc, rfl⟩ := List.mem_map.1 hp
    simp only [decide_eq_true_eq]
    rintro ⟨⟩
    exact hstatus hc
  rw [List.takeWhile_append_of_pos hne]
  simp

theorem atLineEnd_saidPoints (f : CommandFault) : Shell.AtLineEnd f.saidPoints := by
  intro p r h
  unfold saidPoints at h
  split at h
  · cases h
  · cases h
    rfl

/-- A whole number is known by how it is written. -/
theorem eq_of_repr {m n : Int} (h : m.repr = n.repr) : m = n := by
  have hdigits : ∀ {a b : Nat}, a.repr = b.repr → a = b := by
    intro a b hab
    have hlist := congrArg (Nat.ofDigitChars 10 ·.toList 0) hab
    simpa only [Nat.toList_repr, Nat.ofDigitChars_ten_toDigits] using hlist
  -- a sign is no digit
  have hsign : ∀ {a b : Nat}, a.repr ≠ "-" ++ b.repr := by
    intro a b hab
    have hmem : '-' ∈ Nat.toDigits 10 a := by
      rw [← Nat.toList_repr, hab]
      simp
    exact absurd (Nat.isDigit_of_mem_toDigits (by decide) (by decide) hmem) (by decide)
  cases m with
  | ofNat a =>
    cases n with
    | ofNat b => exact congrArg Int.ofNat (hdigits h)
    | negSucc b => exact (hsign h).elim
  | negSucc a =>
    cases n with
    | ofNat b => exact (hsign h.symm).elim
    | negSucc b =>
      have hsucc : a.succ = b.succ := hdigits ((String.append_right_inj "-").1 h)
      rw [Nat.succ.inj hsucc]

/-- The exit status is known by what a message gives of it. -/
theorem status_eq_of_statusPoints {f g : CommandFault} (h : f.statusPoints = g.statusPoints) :
    f.status = g.status := by
  have hinj : Function.Injective CodePoint.char := fun _ _ he => CodePoint.char.inj he
  have htext := String.toList_inj.1 (List.map_injective_iff.2 hinj h)
  rw [Int.toString_eq_repr, Int.toString_eq_repr] at htext
  exact eq_of_repr htext

/-- What a command wrote is known, but for its blank edges, by what a message gives of it. -/
theorem strip_eq_of_saidPoints {f g : CommandFault} (h : f.saidPoints = g.saidPoints) :
    Text.strip f.stderr = Text.strip g.stderr := by
  have hsaid : ∀ f : CommandFault, f.saidPoints.tail = (Text.strip f.stderr).points := by
    intro f
    unfold saidPoints
    split
    · next he => exact (List.isEmpty_iff.1 he).symm
    · rfl
  have hpoints : (Text.strip f.stderr).points = (Text.strip g.stderr).points := by
    rw [← hsaid f, h, hsaid g]
  exact congrArg Text.mk hpoints

/-- Two failed commands have one message only if they have the same exit status and the same words
and wrote the same to standard error, blank edges aside. None of the words and nothing that was
written, with line ends and quotes or like a message itself, makes the message of one command that
of another. -/
theorem message_eq_iff (f g : CommandFault) : f.message = g.message ↔
    f.argv = g.argv ∧ f.status = g.status ∧ Text.strip f.stderr = Text.strip g.stderr := by
  constructor
  · intro h
    have hpoints := congrArg Text.points h
    rw [points_message, points_message, List.append_cancel_left_eq] at hpoints
    have hstatus : f.statusPoints = g.statusPoints := by
      have htake := congrArg (List.takeWhile (· ≠ CodePoint.char ')')) hpoints
      rwa [takeWhile_statusPoints, takeWhile_statusPoints] at htake
    rw [hstatus, List.append_cancel_left_eq, List.cons.injEq, List.append_cancel_left_eq] at hpoints
    obtain ⟨hwords, hsaid⟩ :=
      Shell.joinWords_eq_of_append f.atLineEnd_saidPoints g.atLineEnd_saidPoints hpoints.2
    have hargv : some f.argv = some g.argv := by
      rw [← Shell.split?_render, ← Shell.split?_render]
      exact congrArg (Shell.split? ⟨·⟩) hwords
    exact ⟨Option.some.inj hargv, status_eq_of_statusPoints hstatus, strip_eq_of_saidPoints hsaid⟩
  · rintro ⟨hargv, hstatus, hsaid⟩
    rw [message, message, hargv, hstatus, hsaid]

/-- A word with a line end in it and a line on standard error are told apart. -/
example : CommandFault.message ⟨["mmd", "a\nb"], 1, ""⟩ = "Command failed (1): mmd 'a\nb'" ∧
    CommandFault.message ⟨["mmd", "a"], 1, "b'\n"⟩ = "Command failed (1): mmd a\nb'" := by
  decide +kernel

end CommandFault

end FatInstall
