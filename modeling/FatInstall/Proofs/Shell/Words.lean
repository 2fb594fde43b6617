import FatInstall.Shell.Words

/-!
# A rendered command is read back

The words of a rendered command are the words of the command, whatever code points they are made
of. A plain word is read as it stands. Any other stands between single quotes, and a single quote in
it is a piece of its own, between double quotes.

* `wordsFrom_quoteWord`: one word is read back, in front of what follows it.
* `split?_render`: a command is read back.
-/

namespace FatInstall.Shell

/-- Outside quotes every code point but a backslash is read by itself. -/
theorem wordsFrom_unquoted {p : CodePoint} (hp : p ≠ backslash) (word : Option (List CodePoint))
    (r : List CodePoint) :
    wordsFrom .none word (p :: r) =
      if p.is separatesWords then
        (wordsFrom .none .none r).map ((word.map List.reverse).toList ++ ·)
      else if p = singleQuote then wordsFrom .single (some (word.getD [])) r
      else if p = doubleQuote then wordsFrom .double (some (word.getD [])) r
      else wordsFrom .none (some (p :: word.getD [])) r := by
  rw [wordsFrom.eq_def]
  simp only [hp, if_false]

theorem wordsFrom_singleQuote (word : Option (List CodePoint)) (r : List CodePoint) :
    wordsFrom .none word (singleQuote :: r) = wordsFrom .single (some (word.getD [])) r := by
  rw [wordsFrom_unquoted (by decide)]
  rfl

theorem wordsFrom_doubleQuote (word : Option (List CodePoint)) (r : List CodePoint) :
    wordsFrom .none word (doubleQuote :: r) = wordsFrom .double (some (word.getD [])) r := by
  rw [wordsFrom_unquoted (by decide)]
  rfl

theorem wordsFrom_blank (word : Option (List CodePoint)) (r : List CodePoint) :
    wordsFrom .none word (.char ' ' :: r) =
      (wordsFrom .none .none r).map ((word.map List.reverse).toList ++ ·) := by
  rw [wordsFrom_unquoted (by decide)]
  rfl

/-! ## Plain words -/

/-- A plain code point is read as it stands. -/
theorem wordsFrom_plain {p : CodePoint} (hp : p.is isPlain = true)
    (word : Option (List CodePoint)) (r : List CodePoint) :
    wordsFrom .none word (p :: r) = wordsFrom .none (some (p :: word.getD [])) r := by
  have hne : ∀ q : CodePoint, q.is isPlain = false → p ≠ q := by
    rintro q hq rfl
    rw [hp] at hq
    cases hq
  have hblank : p.is separatesWords = false := by
    cases p with
    | surrogate _ => rfl
    | char c =>
      simp only [CodePoint.is, separatesWords, Bool.or_eq_false_iff, beq_eq_false_iff_ne]
      refine ⟨⟨?_, ?_⟩, ?_⟩ <;> rintro rfl <;> exact hne _ (by decide) rfl
  rw [wordsFrom_unquoted (hne _ (by decide)), hblank, if_neg (hne singleQuote (by decide)),
    if_neg (hne doubleQuote (by decide))]
  rfl

theorem wordsFrom_allPlain {w : List CodePoint} (hw : ∀ p ∈ w, p.is isPlain = true)
    (acc r : List CodePoint) :
    wordsFrom .none (some acc) (w ++ r) = wordsFrom .none (some (w.reverse ++ acc)) r := by
  induction w generalizing acc with
  | nil => rfl
  | cons p w ih =>
    rw [List.cons_append, wordsFrom_plain (hw p List.mem_cons_self), Option.getD_some,
      ih fun q hq => hw q (List.mem_cons_of_mem _ hq)]
    simp

/-! ## Quoted words -/

/-- Between single quotes all is kept; a quote leaves them and comes back. -/
theorem wordsFrom_escapeQuote (p : CodePoint) (acc r : List CodePoint) :
    wordsFrom .single (some acc) (escapeQuote p ++ r) =
      wordsFrom .single (some (p :: acc)) r := by
  have hdouble : ∀ r, wordsFrom .double (some acc) (singleQuote :: doubleQuote :: r) =
      wordsFrom .none (some (singleQuote :: acc)) r := by
    intro r
    cases r <;> rfl
  unfold escapeQuote
  split
  · next hp =>
    subst hp
    simp only [List.cons_append, List.nil_append]
    rw [wordsFrom, if_pos rfl, wordsFrom_doubleQuote, Option.getD_some, hdouble,
      wordsFrom_singleQuote, Option.getD_some]
  · next hp => simp [wordsFrom, hp]

theorem wordsFrom_quoted (w acc r : List CodePoint) :
    wordsFrom .single (some acc) (w.flatMap escapeQuote ++ singleQuote :: r) =
      wordsFrom .none (some (w.reverse ++ acc)) r := by
  induction w generalizing acc with
  | nil => simp [wordsFrom]
  | cons p w ih =>
    rw [List.flatMap_cons, List.append_assoc, wordsFrom_escapeQuote, ih]
    simp

/-! ## Commands -/

/-- A rendered word is read back, in front of what follows it. -/
theorem wordsFrom_quoteWord (w r : List CodePoint) :
    wordsFrom .none .none (quoteWord w ++ r) = wordsFrom .none (some w.reverse) r := by
  unfold quoteWord
  split
  · next hw =>
    obtain ⟨hne, hplain⟩ := hw
    obtain ⟨p, w, rfl⟩ := List.exists_cons_of_ne_nil hne
    rw [List.all_eq_true] at hplain
    rw [List.cons_append, wordsFrom_plain (hplain p List.mem_cons_self),
      wordsFrom_allPlain fun q hq => hplain q (List.mem_cons_of_mem _ hq)]
    simp
  · rw [List.cons_append, List.cons_append, wordsFrom_singleQuote, List.append_assoc,
      List.cons_append, wordsFrom_quoted]
    simp

theorem words?_joinWords (ws : List (List CodePoint)) : words? (joinWords ws) = some ws := by
  unfold words?
  induction ws with
  | nil => rfl
  | cons w ws ih =>
    cases ws with
    | nil =>
      rw [joinWords, ← List.append_nil (quoteWord w), wordsFrom_quoteWord, wordsFrom]
      simp
    | cons w' ws =>
      rw [joinWords, wordsFrom_quoteWord, wordsFrom_blank, ih]
      · simp
      · exact List.cons_ne_nil w' ws

/-- A rendered command is read back as the same words. -/
theorem split?_render (argv : List Text) : split? (render argv) = some argv := by
  have h : words? (render argv).points = some (argv.map Text.points) := words?_joinWords _
  have hmk : Text.mk ∘ Text.points = id := rfl
  rw [split?, h, Option.map_some, List.map_map, hmk, List.map_id]

end FatInstall.Shell
