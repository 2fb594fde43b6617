import FatInstall.Yaml.Token.Lexer

/-!
# Faults in tokens

The tokens of a text end in a fault where the text is not well-formed, or where a number stands
that is none: that of a character, or one of a version. Nothing else can be wrong with a token.

* `Ends`, `FaultsIn`: what a step comes to, and which faults it can end in, closed under sequencing.
* `tokens_fault`: the faults that end the tokens of a text.
-/

namespace FatInstall.Yaml

/-- Does the step give a result as described by `P`, or end in a fault of the class? -/
def Ends {α : Type} (S : Fault → Prop) (P : α → Prop) : Except Fault α → Prop
  | .ok a => P a
  | .error f => S f

/-- Can the step end only in faults of the class? -/
def FaultsIn {α : Type} (S : Fault → Prop) (e : Except Fault α) : Prop := Ends S (fun _ => True) e

section

variable {α β σ : Type} {S S' : Fault → Prop} {P P' : α → Prop} {R : β → Prop}

theorem Ends.bind {e : Except Fault α} {k : α → Except Fault β} (he : Ends S P e)
    (hk : ∀ a, P a → Ends S R (k a)) : Ends S R (e >>= k) := by
  cases e with
  | error f => exact he
  | ok a => exact hk a he

theorem Ends.mono {e : Except Fault α} (he : Ends S P e) (hS : ∀ f, S f → S' f)
    (hP : ∀ a, P a → P' a) : Ends S' P' e := by
  cases e with
  | error f => exact hS f he
  | ok a => exact hP a he

theorem Ends.ite {c : Prop} [Decidable c] {e e' : Except Fault α} (he : c → Ends S P e)
    (he' : ¬c → Ends S P e') : Ends S P (if c then e else e') := by
  split
  · next h => exact he h
  · next h => exact he' h

/-- A fault where a condition holds, and otherwise what follows. -/
theorem Ends.fail_if {c : Prop} [Decidable c] {f : Fault} {k : PUnit → Except Fault α} (h : S f)
    (hk : ¬c → Ends S P (k ⟨⟩)) : Ends S P (if c then .error f >>= k else k ⟨⟩) :=
  .ite (fun _ => h) hk

/-- What each step of a loop keeps is kept by the loop. -/
theorem ends_foldlM {I : σ → Prop} {f : σ → α → Except Fault σ} (h : ∀ s a, I s → Ends S I (f s a))
    {s : σ} (hs : I s) (as : List α) : Ends S I (as.foldlM f s) := by
  induction as generalizing s with
  | nil => exact hs
  | cons a as ih =>
    rw [List.foldlM_cons]
    exact (h s a hs).bind fun s' hs' => ih hs'

theorem faultsIn_ok {a : α} : FaultsIn S (.ok a) := trivial

theorem faultsIn_error {f : Fault} (h : S f) : FaultsIn S (.error f : Except Fault α) := h

theorem FaultsIn.bind {e : Except Fault α} {k : α → Except Fault β} (he : FaultsIn S e)
    (hk : ∀ a, FaultsIn S (k a)) : FaultsIn S (e >>= k) :=
  Ends.bind he fun a _ => hk a

theorem FaultsIn.map {e : Except Fault α} (he : FaultsIn S e) (k : α → β) :
    FaultsIn S (e.map k) := by
  cases e with
  | error f => exact he
  | ok a => exact faultsIn_ok

theorem FaultsIn.ite {c : Prop} [Decidable c] {e e' : Except Fault α} (h : FaultsIn S e)
    (h' : FaultsIn S e') : FaultsIn S (if c then e else e') :=
  Ends.ite (fun _ => h) fun _ => h'

theorem FaultsIn.fail_if {c : Prop} [Decidable c] {f : Fault} {k : PUnit → Except Fault α} (h : S f)
    (hk : FaultsIn S (k ⟨⟩)) : FaultsIn S (if c then .error f >>= k else k ⟨⟩) :=
  Ends.fail_if h fun _ => hk

/-- A result where a condition holds, and otherwise a fault. -/
theorem faultsIn_ok_if {c : Prop} [Decidable c] {a : α} {f : Fault} (h : S f) :
    FaultsIn S (if c then .ok a else .error f) :=
  .ite faultsIn_ok (faultsIn_error h)

/-- The fault that a step ends in is of the class. -/
theorem FaultsIn.of_error {e : Except Fault α} {f : Fault} (h : FaultsIn S e) (hf : e = .error f) :
    S f := by
  rw [hf] at h
  exact h

end

/-- Is it a fault of tokens: of the form of the text, or of a number in it? -/
def Fault.IsLexical (f : Fault) : Prop :=
  f = .malformed ∨ f = .value .noSuchValue ∨ f = .value .characterTooLarge

theorem isLexical_malformed : Fault.malformed.IsLexical := .inl rfl

variable {α : Type}

theorem lexical_malformed : FaultsIn Fault.IsLexical (.error .malformed : Except Fault α) :=
  faultsIn_error isLexical_malformed

theorem Cursor.lexical_endOfLine (c : Cursor) : FaultsIn Fault.IsLexical c.endOfLine :=
  faultsIn_ok_if isLexical_malformed

/-! ## Scalars -/

namespace QuotedScalar

/-- The number of a character is none where no character has it, or no machine word. -/
theorem lexical_pointOf (n : Nat) : FaultsIn Fault.IsLexical (pointOf n) := by
  unfold pointOf
  split
  · exact faultsIn_error (.inr (.inr rfl))
  split
  · exact faultsIn_error (.inr (.inl rfl))
  · exact faultsIn_ok

theorem lexical_emptyLines (fuel : Nat) (found : List Char) (c : Cursor) :
    FaultsIn Fault.IsLexical (emptyLines fuel found c) := by
  induction fuel generalizing found c with
  | zero => exact faultsIn_ok
  | succ fuel ih =>
    unfold emptyLines
    split
    · exact lexical_malformed
    · dsimp only
      split
      · exact faultsIn_ok
      · exact ih _ _

theorem lexical_escape (c : Cursor) : FaultsIn Fault.IsLexical (escape c) := by
  unfold escape
  split
  · exact lexical_malformed
  split
  · exact faultsIn_ok
  · refine .fail_if isLexical_malformed ?_
    split
    · exact lexical_malformed
    · exact (lexical_pointOf _).bind fun _ => faultsIn_ok
  · split
    · exact (lexical_emptyLines _ _ _).map _
    · exact lexical_malformed

theorem lexical_gap (c : Cursor) : FaultsIn Fault.IsLexical (gap c) := by
  unfold gap
  dsimp only
  split
  · split
    · exact lexical_malformed
    · exact faultsIn_ok
  · refine (lexical_emptyLines _ _ _).bind fun _ => ?_
    split
    · exact faultsIn_ok
    split
    · exact faultsIn_ok
    · exact faultsIn_ok

theorem lexical_body (isDouble : Bool) (fuel : Nat) (done : List CodePoint) (c : Cursor) :
    FaultsIn Fault.IsLexical (body isDouble fuel done c) := by
  induction fuel generalizing done c with
  | zero => exact lexical_malformed
  | succ fuel ih =>
    unfold body
    split
    · exact lexical_malformed
    · refine .ite (ih _ _) (.ite faultsIn_ok (.ite ?_ (.ite ?_ (.ite (ih _ _) (ih _ _)))))
      · exact (lexical_escape _).bind fun _ => ih _ _
      · exact (lexical_gap _).bind fun _ => ih _ _

theorem lexical_scan (isDouble : Bool) (c : Cursor) :
    FaultsIn Fault.IsLexical (scan isDouble c) :=
  (lexical_body isDouble _ _ _).bind fun _ => faultsIn_ok

end QuotedScalar

namespace BlockScalar

theorem lexical_increment? (c : Cursor) : FaultsIn Fault.IsLexical (increment? c) := by
  unfold increment?
  split
  · split
    · exact lexical_malformed
    split
    · exact faultsIn_ok
    · exact faultsIn_ok
  · exact faultsIn_ok

theorem lexical_header (c : Cursor) : FaultsIn Fault.IsLexical (header c) := by
  unfold header
  dsimp only
  split
  · exact (lexical_increment? _).bind fun _ => faultsIn_ok_if isLexical_malformed
  · refine (lexical_increment? _).bind fun _ => ?_
    split
    · exact faultsIn_ok_if isLexical_malformed
    · exact faultsIn_ok_if isLexical_malformed

theorem lexical_scan (folded : Bool) (parent : Int) (c : Cursor) :
    FaultsIn Fault.IsLexical (scan folded parent c) := by
  refine (lexical_header _).bind fun _ => ?_
  exact (Cursor.lexical_endOfLine _).bind fun _ => faultsIn_ok

end BlockScalar

/-! ## Anchors, tags and directives -/

namespace Mark

theorem lexical_name (c : Cursor) : FaultsIn Fault.IsLexical (name c) := by
  unfold name
  split
  · exact lexical_malformed
  · exact faultsIn_ok

theorem lexical_anchorName (c : Cursor) : FaultsIn Fault.IsLexical (anchorName c) :=
  (lexical_name _).bind fun _ => faultsIn_ok_if isLexical_malformed

theorem lexical_escapedBytes (fuel : Nat) (done : List UInt8) (c : Cursor) :
    FaultsIn Fault.IsLexical (escapedBytes fuel done c) := by
  induction fuel generalizing done c with
  | zero => exact faultsIn_ok
  | succ fuel ih =>
    unfold escapedBytes
    split
    · exact faultsIn_ok
    split
    · split
      · exact ih _ _
      · exact lexical_malformed
    · exact lexical_malformed

theorem lexical_tagRest (fuel : Nat) (done : List Char) (c : Cursor) :
    FaultsIn Fault.IsLexical (tagRest fuel done c) := by
  induction fuel generalizing done c with
  | zero => exact lexical_malformed
  | succ fuel ih =>
    unfold tagRest
    dsimp only
    split
    · refine (lexical_escapedBytes _ _ _).bind fun _ => ?_
      split
      · exact .ite faultsIn_ok (ih _ _)
      · exact lexical_malformed
    · exact .ite lexical_malformed faultsIn_ok

theorem lexical_tagName (c : Cursor) : FaultsIn Fault.IsLexical (tagName c) :=
  (lexical_tagRest _ _ _).bind fun _ => faultsIn_ok

theorem lexical_tagHandle (c : Cursor) : FaultsIn Fault.IsLexical (tagHandle c) := by
  unfold tagHandle
  split
  · exact lexical_malformed
  dsimp only
  split
  · exact faultsIn_ok
  · exact faultsIn_ok_if isLexical_malformed

theorem lexical_tag (c : Cursor) : FaultsIn Fault.IsLexical (tag c) := by
  have hend : ∀ (t : Token) (c : Cursor), FaultsIn Fault.IsLexical
      (if orEnd isSpaceOrBreak c.peek then .ok (t, c) else .error .malformed) :=
    fun _ _ => faultsIn_ok_if isLexical_malformed
  have hrest : ∀ (handle : String) (c : Cursor), FaultsIn Fault.IsLexical
      (tagName c >>= fun r => if orEnd isSpaceOrBreak r.2.peek then
        .ok (Token.tag (some handle) r.1, r.2) else .error .malformed) :=
    fun _ _ => (lexical_tagName _).bind fun _ => hend _ _
  unfold tag
  dsimp only
  split
  · exact (lexical_tagName _).bind fun _ => .fail_if isLexical_malformed (hend _ _)
  split
  · exact hend _ _
  split
  · exact (lexical_tagHandle _).bind fun _ => hrest _ _
  · exact hrest _ _

/-- A row of digits is no number if there are too many. -/
theorem lexical_number (c : Cursor) : FaultsIn Fault.IsLexical (number c) := by
  unfold number
  split
  · exact lexical_malformed
  split
  · exact faultsIn_error (.inr (.inl rfl))
  · exact faultsIn_ok

theorem lexical_version (c : Cursor) : FaultsIn Fault.IsLexical (version c) := by
  refine (lexical_number _).bind fun _ => .fail_if isLexical_malformed ?_
  exact (lexical_number _).bind fun _ => faultsIn_ok_if isLexical_malformed

theorem lexical_handle (c : Cursor) : FaultsIn Fault.IsLexical (handle c) := by
  refine (lexical_tagHandle _).bind fun _ => .fail_if isLexical_malformed ?_
  exact (lexical_tagName _).bind fun _ => faultsIn_ok_if isLexical_malformed

theorem lexical_directive (c : Cursor) : FaultsIn Fault.IsLexical (directive c) := by
  have hend : ∀ d : Directive × Cursor, FaultsIn Fault.IsLexical
      (do return (Token.directive d.1, ← d.2.endOfLine)) :=
    fun _ => (Cursor.lexical_endOfLine _).bind fun _ => faultsIn_ok
  unfold directive
  refine (lexical_name _).bind fun _ => ?_
  dsimp only
  split
  · exact lexical_malformed
  split
  · exact (lexical_version _).bind hend
  split
  · exact (lexical_handle _).bind hend
  · exact hend _

end Mark

/-! ## The lexer -/

namespace Lexer

variable {l : Lexer}

theorem lexical_dropStale (l : Lexer) : FaultsIn Fault.IsLexical l.dropStale := by
  unfold dropStale
  dsimp only
  split
  · exact lexical_malformed
  · exact faultsIn_ok

theorem lexical_dropPlace (l : Lexer) : FaultsIn Fault.IsLexical l.dropPlace := by
  unfold dropPlace
  split
  · exact faultsIn_ok
  split
  · exact lexical_malformed
  · exact faultsIn_ok

theorem lexical_savePlace (l : Lexer) : FaultsIn Fault.IsLexical l.savePlace := by
  unfold savePlace
  split
  · exact faultsIn_ok
  · exact (lexical_dropPlace l).bind fun _ => faultsIn_ok

theorem lexical_openHere (l : Lexer) (t : Token) : FaultsIn Fault.IsLexical (l.openHere t) := by
  unfold openHere
  split
  · exact faultsIn_ok
  split
  · exact lexical_malformed
  · exact faultsIn_ok

theorem lexical_closeFlow (l : Lexer) (t : Token) : FaultsIn Fault.IsLexical (l.closeFlow t) := by
  unfold closeFlow
  exact .fail_if isLexical_malformed ((lexical_dropPlace l).bind fun _ => faultsIn_ok)

/-- A token that may open a block collection. -/
theorem lexical_opening (l : Lexer) (t : Token) (change : Lexer → Lexer) (k : Lexer → Lexer) :
    FaultsIn Fault.IsLexical do
      let l ← l.openHere t
      let l ← (change l).dropPlace
      return k l :=
  (lexical_openHere l t).bind fun _ => (lexical_dropPlace _).bind fun _ => faultsIn_ok

theorem lexical_readColon (l : Lexer) : FaultsIn Fault.IsLexical l.readColon := by
  unfold readColon
  split
  · exact faultsIn_ok
  · exact lexical_opening l _ _ _

theorem lexical_readNode (l : Lexer) {scan : Cursor → Except Fault (Token × Cursor)}
    (h : ∀ c, FaultsIn Fault.IsLexical (scan c)) : FaultsIn Fault.IsLexical (l.readNode scan) :=
  (lexical_savePlace l).bind fun _ => (h _).bind fun _ => faultsIn_ok

theorem lexical_readToken (l : Lexer) (c : Char) :
    FaultsIn Fault.IsLexical (l.readToken c) := by
  have hplace : ∀ (l : Lexer) (k : Lexer → Lexer),
      FaultsIn Fault.IsLexical (do return k (← l.dropPlace)) :=
    fun l _ => (lexical_dropPlace l).bind fun _ => faultsIn_ok
  have hopen : ∀ t, FaultsIn Fault.IsLexical (l.openFlow t) :=
    fun _ => (lexical_savePlace l).bind fun _ => faultsIn_ok
  have hblock : ∀ folded, FaultsIn Fault.IsLexical (l.readBlockScalar folded) :=
    fun folded => (lexical_dropPlace _).bind fun _ =>
      (BlockScalar.lexical_scan folded _ _).bind fun _ => faultsIn_ok
  have hanchor : ∀ t : String → Token, FaultsIn Fault.IsLexical
      (l.readNode fun c => (Mark.anchorName c).map fun r => (t r.1, r.2)) :=
    fun _ => lexical_readNode l fun c => (Mark.lexical_anchorName c).map _
  unfold readToken
  refine .ite ?_ <| .ite (hplace _ _) <| .ite (hplace _ _) <| .ite (hopen _) <| .ite (hopen _) <|
    .ite (lexical_closeFlow l _) <| .ite (lexical_closeFlow l _) <| .ite (hplace _ _) <|
    .ite (lexical_opening l _ _ _) <| .ite (lexical_opening l _ _ _) <|
    .ite (lexical_readColon l) <| .ite (hanchor _) <| .ite (hanchor _) <|
    .ite (lexical_readNode l Mark.lexical_tag) <| .ite (hblock _) <| .ite (hblock _) <|
    .ite (lexical_readNode l (QuotedScalar.lexical_scan false)) <|
    .ite (lexical_readNode l (QuotedScalar.lexical_scan true)) <| .ite ?_ lexical_malformed
  · exact (lexical_dropPlace _).bind fun _ =>
      (Mark.lexical_directive _).bind fun _ => faultsIn_ok
  · exact (lexical_savePlace l).bind fun _ => faultsIn_ok

theorem lexical_step (l : Lexer) : FaultsIn Fault.IsLexical l.step := by
  unfold step
  refine (lexical_dropStale _).bind fun _ => ?_
  dsimp only
  split
  · exact (lexical_dropPlace _).bind fun _ => faultsIn_ok
  · exact lexical_readToken _ _

theorem lexical_run {fuel n : Nat} {f : Fault} (h : (run fuel l).2 = some (n, f)) :
    f.IsLexical := by
  induction fuel generalizing l with
  | zero => cases h
  | succ fuel ih =>
    unfold run at h
    split at h
    · cases h
    cases hstep : l.step with
    | ok l' =>
      rw [hstep] at h
      exact ih h
    | error f' =>
      rw [hstep] at h
      cases h
      exact (lexical_step l).of_error hstep

end Lexer

/-- The tokens of a text end in a fault of its form or of a number in it. -/
theorem tokens_fault {cs : List Char} {n : Nat} {f : Fault} (h : (tokens cs).2 = some (n, f)) :
    f.IsLexical :=
  Lexer.lexical_run h

end FatInstall.Yaml
