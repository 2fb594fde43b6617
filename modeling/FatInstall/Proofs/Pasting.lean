import FatInstall.Proofs.Shell.Words
import Mathlib.Logic.Function.Basic

/-!
# A rendered command can be pasted

A rendered command is read back as the words it was made of, so that two commands are never shown
alike. A shell that reads it has nothing to do but to cut it into words: all that could have
another meaning to it stands in quotes, where it has none.

* `exposed`: the code points of a line that a shell may give a meaning of their own.
* `render_pastes`: a rendered command is read back, and only plain code points and the blanks
  between its words are exposed.
-/

namespace FatInstall.Shell

/-- The code points of a line that a shell may give a meaning of their own: those outside quotes,
and between double quotes the signs that have one there. -/
def exposed : Quotes → List CodePoint → List CodePoint
  | _, [] => []
  | .none, p :: r =>
    if p = singleQuote then exposed .single r
    else if p = doubleQuote then exposed .double r
    else p :: exposed .none r
  | .single, p :: r => if p = singleQuote then exposed .none r else exposed .single r
  | .double, p :: r =>
    if p = doubleQuote then exposed .none r
    else if p.is isEscapedInDouble then p :: exposed .double r
    else exposed .double r

theorem exposed_escapeQuote (p : CodePoint) (r : List CodePoint) :
    exposed .single (escapeQuote p ++ r) = exposed .single r := by
  unfold escapeQuote
  split
  · rfl
  · next hp => simp [exposed, hp]

/-- Nothing between single quotes is exposed. -/
theorem exposed_quoted (w r : List CodePoint) :
    exposed .single (w.flatMap escapeQuote ++ singleQuote :: r) = exposed .none r := by
  induction w with
  | nil => simp [exposed]
  | cons p w ih => rw [List.flatMap_cons, List.append_assoc, exposed_escapeQuote, ih]

/-- A plain word is exposed as it stands. -/
theorem exposed_allPlain {w : List CodePoint} (hw : ∀ p ∈ w, p.is isPlain = true)
    (r : List CodePoint) : exposed .none (w ++ r) = w ++ exposed .none r := by
  induction w with
  | nil => rfl
  | cons p w ih =>
    obtain ⟨hp, hw⟩ := List.forall_mem_cons.1 hw
    have hne : ∀ q : CodePoint, q.is isPlain = false → p ≠ q := by
      rintro q hq rfl
      cases hp.symm.trans hq
    simp only [List.cons_append, exposed, if_neg (hne singleQuote (by decide)),
      if_neg (hne doubleQuote (by decide)), ih hw]

/-- Of a rendered word only plain code points are exposed, in front of what follows it. -/
theorem exposed_quoteWord (w r : List CodePoint) :
    ∃ xs, exposed .none (quoteWord w ++ r) = xs ++ exposed .none r ∧
      ∀ p ∈ xs, p.is isPlain = true := by
  unfold quoteWord
  split
  · next hw =>
    have hplain : ∀ p ∈ w, p.is isPlain = true := List.all_eq_true.1 hw.2
    exact ⟨w, exposed_allPlain hplain r, hplain⟩
  · refine ⟨[], ?_, by simp⟩
    rw [List.cons_append, List.cons_append, List.append_assoc]
    exact exposed_quoted w r

/-- Of rendered words only plain code points and the blanks between them are exposed, in front of
what follows them. -/
theorem exposed_joinWords_append (ws : List (List CodePoint)) (r : List CodePoint) :
    ∃ xs, exposed .none (joinWords ws ++ r) = xs ++ exposed .none r ∧
      ∀ p ∈ xs, p.is isPlain = true ∨ p = .char ' ' := by
  induction ws with
  | nil => exact ⟨[], rfl, by simp⟩
  | cons w ws ih =>
    cases ws with
    | nil =>
      obtain ⟨xs, hx, hplain⟩ := exposed_quoteWord w r
      exact ⟨xs, hx, fun p hp => .inl (hplain p hp)⟩
    | cons w' ws =>
      obtain ⟨ys, hy, hrest⟩ := ih
      obtain ⟨xs, hx, hplain⟩ := exposed_quoteWord w (.char ' ' :: (joinWords (w' :: ws) ++ r))
      have hjoin : joinWords (w :: w' :: ws) ++ r =
          quoteWord w ++ .char ' ' :: (joinWords (w' :: ws) ++ r) := List.append_assoc ..
      have hblank : exposed .none (.char ' ' :: (joinWords (w' :: ws) ++ r)) =
          .char ' ' :: exposed .none (joinWords (w' :: ws) ++ r) := rfl
      refine ⟨xs ++ .char ' ' :: ys, ?_, fun p hp => ?_⟩
      · rw [hjoin, hx, hblank, hy, List.append_assoc, List.cons_append]
      · rcases List.mem_append.1 hp with hp | hp
        · exact .inl (hplain p hp)
        · rcases List.mem_cons.1 hp with rfl | hp
          · exact .inr rfl
          · exact hrest p hp

theorem exposed_joinWords (ws : List (List CodePoint)) :
    ∀ p ∈ exposed .none (joinWords ws), p.is isPlain = true ∨ p = .char ' ' := by
  obtain ⟨xs, hx, hxs⟩ := exposed_joinWords_append ws []
  rw [List.append_nil, exposed, List.append_nil] at hx
  rwa [hx]

/-- A rendered command is read back as the words that it was made of, whatever code points they
hold, and a shell has nothing else to do with it: outside quotes there are only plain code points
and the blanks between words, and nothing with a meaning stands between double quotes. Two commands
are therefore never rendered alike. -/
theorem render_pastes :
    (∀ argv : List Text, split? (render argv) = some argv ∧
      ∀ p ∈ exposed .none (render argv).points, p.is isPlain = true ∨ p = .char ' ') ∧
      Function.Injective render := by
  refine ⟨fun argv => ⟨split?_render argv, exposed_joinWords _⟩, fun argv argv' h => ?_⟩
  have hread : some argv = some argv' := by
    rw [← split?_render argv, h, split?_render argv']
  exact Option.some.inj hread

example : render ["cp", "it's", "", "$HOME\n"] = "cp 'it'\"'\"'s' '' '$HOME\n'" := by decide

end FatInstall.Shell
