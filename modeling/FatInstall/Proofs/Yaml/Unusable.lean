import FatInstall.Proofs.Yaml.Nodes
import FatInstall.Proofs.Yaml.Scalars
import FatInstall.Yaml.Document

/-!
# Documents without a value

A document that is well-formed can still have no value: a scalar in it may write nothing of its
kind, or the text may ask for more than there is. What is wrong with such a document can always be
seen in its tokens.

* `IsUnusable`: what can be wrong with tokens, each with its fault.
* `Graph.flatten_merges`: what merging leaves as it is.
* `Survey.ends_run`: finding the values of all scalars ends in a fault of one of them.
* `readWithin_unusable`: a document without a value has unusable tokens.
-/

namespace FatInstall.Yaml

/-- What can be wrong with tokens of well-formed documents. -/
inductive IsUnusable (src : Reading.Source) : ValueFault → Prop
  /-- A number ends the tokens: there is no such character or version. -/
  | number {n : Nat} {v : ValueFault} (ends : src.fault = some (n, .value v))
    (kind : v = .noSuchValue ∨ v = .characterTooLarge) : IsUnusable src v
  /-- Collections are inside one another, each by a token of its own. -/
  | nesting (long : src.room ≤ src.tokens.length) : IsUnusable src .tooDeep
  /-- A scalar writes no value of its kind. -/
  | scalar {tag : Tag} {text : Text} {v : ValueFault} (written : HasText src.tokens text)
    (kind : HasKind src.tokens tag text) (none : Scalar.value tag text = .error (.value v)) :
    IsUnusable src v
  /-- A tag makes a mapping a date. -/
  | mappingAsDate (tagged : HasTag src.tokens) : IsUnusable src .mappingAsDate
  /-- A tag makes a mapping a scalar, whose default value is itself. -/
  | ownDefault (tagged : HasTag src.tokens) : IsUnusable src .tooDeep

/-- Is it a fault that a document can have, beside those of its form? -/
def IsDocumentFault (v : ValueFault) : Prop :=
  IsScalarFault v ∨ v = .characterTooLarge ∨ v = .tooDeep ∨ v = .mappingAsDate

/-- Unusable tokens have one of the faults of documents. -/
theorem IsUnusable.isDocumentFault {src : Reading.Source} {v : ValueFault}
    (h : IsUnusable src v) : IsDocumentFault v := by
  cases h with
  | number ends kind =>
    rcases kind with rfl | rfl
    · exact .inl (.inl rfl)
    · exact .inr (.inl rfl)
  | nesting long => exact .inr (.inr (.inl rfl))
  | scalar written kind none =>
    rcases (Scalar.faultsIn_value _ _).of_error none with hf | ⟨v', hv, hfault⟩
    · cases hf
    · cases hv
      exact .inl hfault
  | mappingAsDate tagged => exact .inr (.inr (.inr rfl))
  | ownDefault tagged => exact .inr (.inr (.inl rfl))

/-- A fault of the form of a document, or of its tokens. -/
def IsFaultOf (src : Reading.Source) (f : Fault) : Prop :=
  f = .malformed ∨ ∃ v, f = .value v ∧ IsUnusable src v

namespace Graph

variable {g g' g'' : Graph} {ts : List Token} {n : Nat}

/-! ## Merging -/

/-- Is the second graph the first after merges? Scalars stay what they are, and the kinds of nodes
too, but that the key of a default value becomes a text. -/
def Merges (g g' : Graph) : Prop :=
  ∀ m, (∀ text, (g'.node m).content = .scalar text ↔ (g.node m).content = .scalar text) ∧
    ((g'.node m).tag = (g.node m).tag ∨
      (g.node m).tag = .default ∧ (g'.node m).tag = .str)

theorem Merges.refl (g : Graph) : g.Merges g := fun _ => ⟨fun _ => Iff.rfl, .inl rfl⟩

theorem Merges.trans (h : g.Merges g') (h' : g'.Merges g'') : g.Merges g'' := by
  intro m
  obtain ⟨hs, ht⟩ := h m
  obtain ⟨hs', ht'⟩ := h' m
  refine ⟨fun text => (hs' text).trans (hs text), ?_⟩
  rcases ht with ht | ⟨ht, hstr⟩
  · rwa [ht] at ht'
  · rcases ht' with ht' | ⟨ht', -⟩
    · exact .inr ⟨ht, ht'.trans hstr⟩
    · rw [hstr] at ht'
      cases ht'

theorem Merges.isCollection (h : g.Merges g') (hn : (g.node n).content.IsCollection) :
    (g'.node n).content.IsCollection :=
  fun text htext => hn text (((h n).1 text).1 htext)

/-- Merges keep that nodes go back to the tokens. -/
theorem IsFrom.merges (h : g.IsFrom ts) (hm : g.Merges g') : g'.IsFrom ts := by
  intro m
  obtain ⟨hs, ht⟩ := hm m
  refine ⟨fun text htext => ?_, fun hcollection => ?_⟩
  · obtain ⟨hwritten, hkind⟩ := (h m).scalar text ((hs text).1 htext)
    refine ⟨hwritten, ?_⟩
    rcases ht with ht | ⟨-, hstr⟩
    · rwa [ht]
    · exact .inr (.inl hstr)
  · have hkind := (h m).collection fun text htext => hcollection text ((hs text).2 htext)
    rcases ht with ht | ⟨ht, -⟩
    · rwa [ht]
    · refine .inl (hkind.resolve_right ?_)
      rw [ht]
      exact fun husual => husual.elim nofun nofun

theorem merges_setEntries (hn : (g.node n).content.IsCollection) (es : List (Nat × Nat)) :
    g.Merges (g.setEntries n es) := by
  intro m
  unfold setEntries
  rw [node_set]
  split
  · next heq =>
    refine ⟨fun text => ⟨nofun, fun h => ?_⟩, .inl (by rw [heq.1])⟩
    rw [heq.1] at h
    exact (hn text h).elim
  · exact Merges.refl g m

theorem merges_setTag (hn : (g.node n).tag = .default) : g.Merges (g.setTag n .str) := by
  intro m
  unfold setTag
  rw [node_set]
  split
  · next heq =>
    rw [heq.1]
    exact ⟨fun text => Iff.rfl, .inr ⟨hn, rfl⟩⟩
  · exact Merges.refl g m

theorem merges_nameDefaults (g : Graph) (es : List (Nat × Nat)) : g.Merges (g.nameDefaults es) := by
  unfold nameDefaults
  induction es generalizing g with
  | nil => exact .refl g
  | cons e es ih =>
    rw [List.foldl_cons]
    split
    · next h => exact (merges_setTag h).trans (ih _)
    · exact ih g

theorem isCollection_of_mapping {es : List (Nat × Nat)} (h : (g.node n).content = .mapping es) :
    (g.node n).content.IsCollection := by
  rw [h]
  exact nofun

/-- Each round of merging keeps scalars, or finds that the document is not well-formed. -/
theorem merges_rounds (fuel : Nat) :
    (∀ n merged g, (g.node n).content.IsCollection →
      Ends (· = .malformed) (fun g' => g.Merges g') (mergeInto fuel n merged g)) ∧
    ∀ items g, Ends (· = .malformed) (fun r => g.Merges r.2) (mergeAll fuel items g) := by
  induction fuel with
  | zero =>
    refine ⟨fun _ _ _ _ => rfl, fun items g => ?_⟩
    cases items with
    | nil => exact .refl g
    | cons n r => exact rfl
  | succ fuel ih =>
    obtain ⟨hinto, hall⟩ := ih
    constructor
    · intro n merged g hn
      unfold mergeInto
      split
      · have hnames := merges_nameDefaults g (g.entries n)
        exact hnames.trans (merges_setEntries (hnames.isCollection hn) _)
      · next before value after _ =>
        have hset := merges_setEntries hn (before ++ after)
        have hn' := hset.isCollection hn
        dsimp only
        split
        · next es hvalue =>
          refine (hinto value [] _ (isCollection_of_mapping hvalue)).bind fun g₁ h₁ => ?_
          exact (hinto n _ g₁ (h₁.isCollection hn')).mono (fun _ => id)
            fun _ h₂ => (hset.trans h₁).trans h₂
        · next items _ =>
          refine (hall items _).bind fun r h₁ => ?_
          exact (hinto n _ r.2 (h₁.isCollection hn')).mono (fun _ => id)
            fun _ h₂ => (hset.trans h₁).trans h₂
        · exact rfl
    · intro items g
      cases items with
      | nil => exact .refl g
      | cons n r =>
        unfold mergeAll
        split
        · next es hes =>
          refine (hinto n [] g (isCollection_of_mapping hes)).bind fun g₁ h₁ => ?_
          exact (hall r g₁).bind fun p h₂ => h₁.trans h₂
        · exact rfl

/-- Merging leaves scalars as they are. -/
theorem flatten_merges (hn : (g.node n).content.IsCollection) :
    Ends (· = .malformed) (fun g' => g.Merges g') (g.flatten n) :=
  (merges_rounds _).1 n [] g hn

end Graph

namespace Survey

variable {src : Reading.Source} {g : Graph} {n : Nat} {s : Survey}

/-! ## Scalars -/

/-- The text of a node that is read as a scalar is written among the tokens, or leads back to
itself. -/
theorem ends_scalarText (hg : g.IsFrom src.tokens) (fuel n : Nat) :
    Ends (fun f => f = .malformed ∨ f = .value .tooDeep) (HasText src.tokens)
      (scalarText g fuel n) := by
  induction fuel generalizing n with
  | zero => exact .inr rfl
  | succ fuel ih =>
    unfold scalarText
    split
    · next text htext => exact ((hg n).scalar text htext).1
    · exact .inl rfl
    · split
      · exact ih _
      · exact .inl rfl

/-- A scalar has a value, or its kind and its text show why not. -/
theorem ends_scalar (hg : g.IsFrom src.tokens) (n : Nat) :
    Ends (IsFaultOf src) (fun _ => True) (scalar g n) := by
  have hvalue : ∀ {tag text}, HasText src.tokens text → HasKind src.tokens tag text →
      Ends (IsFaultOf src) (fun _ => True) (Scalar.value tag text) := by
    intro tag text htext hkind
    rcases hv : Scalar.value tag text with (_ | v) | v
    · exact .inl rfl
    · exact .inr ⟨v, rfl, .scalar htext hkind hv⟩
    · exact trivial
  unfold scalar
  refine .fail_if (.inl rfl) fun hscalar => ?_
  have hscalar : (g.node n).tag.isScalar = true := by simpa using hscalar
  -- a collection is read as a scalar only if a tag says so
  have htag : (g.node n).content.IsCollection → HasTag src.tokens := by
    refine fun hn => ((hg n).collection hn).resolve_right fun husual => ?_
    rcases husual with h | h <;> rw [h] at hscalar <;> cases hscalar
  have htext : Ends (IsFaultOf src)
      (fun text => HasText src.tokens text ∧ HasKind src.tokens (g.node n).tag text)
      (scalarText g (g.size + 1) n) := by
    by_cases hn : (g.node n).content.IsCollection
    · refine (ends_scalarText hg _ n).mono (fun f hf => ?_) fun _ ht => ⟨ht, .inl (htag hn)⟩
      rcases hf with rfl | rfl
      · exact .inl rfl
      · exact .inr ⟨_, rfl, .ownDefault (htag hn)⟩
    · obtain ⟨text, htext⟩ : ∃ text, (g.node n).content = .scalar text := by
        simpa [Content.IsCollection] using hn
      have hread : scalarText g (g.size + 1) n = .ok text := by
        unfold scalarText
        rw [htext]
      rw [hread]
      exact (hg n).scalar text htext
  refine htext.bind fun text hfrom => ?_
  split
  · next hes => exact .inr ⟨_, rfl, .mappingAsDate (htag (Graph.isCollection_of_mapping hes))⟩
  · exact hvalue hfrom.1 hfrom.2

/-! ## Collections -/

/-- Do the nodes of the survey go back to the tokens? -/
def IsFrom (src : Reading.Source) (s : Survey) : Prop := s.graph.IsFrom src.tokens

theorem ends_meet (hs : s.IsFrom src) (n : Nat) :
    Ends (IsFaultOf src) (IsFrom src) (s.meet n) := by
  unfold meet
  split
  · exact hs
  split
  · exact hs
  · exact (ends_scalar hs n).bind fun _ _ => hs

theorem ends_meetKey (hs : s.IsFrom src) (n : Nat) :
    Ends (IsFaultOf src) (IsFrom src) (s.meetKey n) := by
  unfold meetKey
  split
  · exact .inl rfl
  · exact ends_meet hs n

theorem ends_meetEntries (hs : s.IsFrom src) (es : List (Nat × Nat)) :
    Ends (IsFaultOf src) (IsFrom src) (s.meetEntries es) := by
  refine ends_foldlM (fun s e hs => ?_) hs es
  exact (ends_meetKey hs e.1).bind fun _ hs' => ends_meet hs' e.2

theorem ends_meetRows (hs : s.IsFrom src) (items : List Nat) :
    Ends (IsFaultOf src) (fun r => r.1.IsFrom src) (s.meetRows items) := by
  induction items generalizing s with
  | nil => exact hs
  | cons n r ih =>
    have hentry : Ends (IsFaultOf src) (fun _ => True) (entryOf s.graph n) := by
      unfold entryOf
      split
      · exact trivial
      · exact .inl rfl
    refine hentry.bind fun e _ => (ends_meet hs e.1).bind fun s₁ hs₁ => ?_
    exact (ends_meet hs₁ e.2).bind fun s₂ hs₂ => (ih hs₂).bind fun _ hr => hr

theorem ends_visit (hs : s.IsFrom src) (n : Nat) :
    Ends (IsFaultOf src) (IsFrom src) (s.visit n) := by
  have hflatten : ∀ {es}, (s.graph.node n).content = .mapping es →
      Ends (IsFaultOf src) (fun g => g.IsFrom src.tokens) (s.graph.flatten n) := fun hes =>
    (Graph.flatten_merges (Graph.isCollection_of_mapping hes)).mono (fun _ hf => .inl hf)
      fun _ hm => Graph.IsFrom.merges hs hm
  have hentries : ∀ {g : Graph} (shapes es), g.IsFrom src.tokens →
      Ends (IsFaultOf src) (IsFrom src) ((⟨g, shapes, s.queue⟩ : Survey).meetEntries es) := by
    intro g shapes es hg
    have hs : IsFrom src ⟨g, shapes, s.queue⟩ := hg
    exact ends_meetEntries hs es
  have hrows : ∀ items, Ends (IsFaultOf src) (fun r => r.1.IsFrom src)
      ((s.record n (.rows [])).meetRows items) := ends_meetRows hs
  unfold visit
  dsimp only
  split
  · next items _ _ =>
    have hrecord : (s.record n (.list [])).IsFrom src := hs
    have hitems := ends_foldlM (fun _ m hs => ends_meet hs m) hrecord items
    refine hitems.bind fun s' hs' => ?_
    exact hs'
  · next hes =>
    refine (hflatten hes).bind fun g hg => (hentries _ _ hg).bind fun s' hs' => ?_
    exact hs'
  · next hes =>
    refine (hflatten hes).bind fun g hg => (hentries _ _ hg).bind fun s' hs' => ?_
    exact hs'
  · refine (hrows _).bind fun r hr => ?_
    exact hr
  · refine (hrows _).bind fun r hr => ?_
    exact hr
  · exact .inl rfl

theorem ends_run (hs : s.IsFrom src) (fuel : Nat) :
    Ends (IsFaultOf src) (IsFrom src) (run fuel s) := by
  induction fuel generalizing s with
  | zero => exact hs
  | succ fuel ih =>
    unfold run
    split
    · exact hs
    · next n r _ =>
      have hr : IsFrom src { s with queue := r } := hs
      exact (ends_visit hr n).bind fun s' hs' => ih hs'

theorem ends_value (hg : g.IsFrom src.tokens) (root : Nat) :
    Ends (IsFaultOf src) (fun _ => True) (g.value root) := by
  have hstart : IsFrom src ⟨g, [], []⟩ := hg
  have hroot : Ends (IsFaultOf src) (IsFrom src) (ofRoot g root) :=
    (ends_meet hstart root).bind fun s hs => ends_run hs _
  exact hroot.bind fun _ _ => trivial

end Survey

/-! ## Documents -/

/-- A document without a value that is well-formed has tokens that cannot be used. -/
theorem readWithin_unusable {room : Nat} {text : String} {v : ValueFault}
    (h : readWithin room text = .error (.value v)) :
    IsUnusable (.ofText room text.toList) v := by
  have hends : Ends (IsFaultOf (.ofText room text.toList)) (fun _ => True)
      (readWithin room text) := by
    unfold readWithin
    split
    · exact .inl rfl
    cases hg : Graph.ofText room text.toList with
    | error f =>
      rcases Graph.ofText_fault hg with rfl | ⟨n, hn⟩ | ⟨rfl, hlong⟩
      · exact .inl rfl
      · rcases tokens_fault hn with rfl | rfl | rfl
        · exact .inl rfl
        · exact .inr ⟨_, rfl, .number hn (.inl rfl)⟩
        · exact .inr ⟨_, rfl, .number hn (.inr rfl)⟩
      · exact .inr ⟨_, rfl, .nesting hlong⟩
    | ok p =>
      obtain ⟨g, root⟩ := p
      cases root with
      | none => exact trivial
      | some root => exact Survey.ends_value (Graph.isFrom_of_ofText hg) root
  rw [h] at hends
  rcases hends with hf | ⟨v', hv, hunusable⟩
  · cases hf
  · cases hv
    exact hunusable

end FatInstall.Yaml
