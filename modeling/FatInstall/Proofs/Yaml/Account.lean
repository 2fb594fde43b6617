import FatInstall.Proofs.Yaml.Tokens
import FatInstall.Yaml.Graph.OfTokens

/-!
# The account of a reading

While a document is read, every node goes back to tokens. The text of a scalar is written there, and
unless a tag is written too, its kind is the one that the text shows.

* `Node.IsFrom`: the tokens that a node can go back to.
* `Reading.Triple`: what a step of reading leads to, and which faults can end it.
* `Reading.IsAt`: the account of a reading, with the steps that keep it.
-/

namespace FatInstall.Yaml

/-- Is a tag written among the tokens? -/
def HasTag (ts : List Token) : Prop := ∃ handle rest, Token.tag handle rest ∈ ts

/-- Is the text that of a scalar among the tokens, or of one that is not written? -/
def HasText (ts : List Token) (text : Text) : Prop :=
  text = "" ∨ ∃ isPlain, Token.scalar text isPlain ∈ ts

/-- Can a scalar of the text be of the kind, as the tokens say? -/
def HasKind (ts : List Token) (tag : Tag) (text : Text) : Prop :=
  HasTag ts ∨ tag = .str ∨ tag = .null ∨ tag = .ofPlain text

/-- Is it what a collection is made of? -/
def Content.IsCollection (c : Content) : Prop := ∀ text, c ≠ .scalar text

/-- Is it the kind of a collection that is given none? -/
def Tag.IsUsual (t : Tag) : Prop := t = .seq ∨ t = .map

/-- Does the node go back to the tokens? -/
structure Node.IsFrom (ts : List Token) (x : Node) : Prop where
  scalar : ∀ text, x.content = .scalar text → HasText ts text ∧ HasKind ts x.tag text
  collection : x.content.IsCollection → HasTag ts ∨ x.tag.IsUsual

namespace Graph

variable {g g' g'' : Graph} {ts : List Token}

theorem node_push (g : Graph) (x : Node) (m : Nat) :
    (g.push x).node m = if m = g.size then x else g.node m := by
  unfold node push size
  simp only [Array.getD_eq_getD_getElem?, Array.getElem?_push]
  split <;> rfl

theorem node_set (g : Graph) (n : Nat) (x : Node) (m : Nat) :
    (g.set n x).node m = if m = n ∧ n < g.size then x else g.node m := by
  unfold node set size
  simp only [Array.getD_eq_getD_getElem?, Array.getElem?_setIfInBounds]
  by_cases hn : n = m
  · subst hn
    by_cases hlt : n < g.nodes.size
    · simp [hlt]
    · simp [hlt]
  · simp [hn, Ne.symm hn]

theorem node_size (g : Graph) : g.node g.size = ⟨.str, .scalar ""⟩ := by
  simp [node, size]

/-- Do all nodes go back to the tokens? -/
def IsFrom (g : Graph) (ts : List Token) : Prop := ∀ m, (g.node m).IsFrom ts

/-- Are the collections of the first graph still collections in the second, and of the same
kinds? -/
def Grows (g g' : Graph) : Prop :=
  ∀ m, (g.node m).content.IsCollection →
    (g'.node m).content.IsCollection ∧ (g'.node m).tag = (g.node m).tag

theorem Grows.refl (g : Graph) : g.Grows g := fun _ h => ⟨h, rfl⟩

theorem Grows.trans (h : g.Grows g') (h' : g'.Grows g'') : g.Grows g'' := fun m hm =>
  have hm' := h m hm
  have hm'' := h' m hm'.1
  ⟨hm''.1, hm''.2.trans hm'.2⟩

theorem IsFrom.push (h : g.IsFrom ts) {x : Node} (hx : x.IsFrom ts) : (g.push x).IsFrom ts := by
  intro m
  rw [node_push]
  split
  · exact hx
  · exact h m

/-- The number of a new node is none of a collection yet. -/
theorem grows_push (g : Graph) (x : Node) : g.Grows (g.push x) := by
  intro m hm
  rw [node_push]
  split
  · next hsize =>
    rw [hsize, node_size] at hm
    exact (hm _ rfl).elim
  · exact ⟨hm, rfl⟩

variable {n : Nat} {c : Content}

/-- A collection is filled with parts. -/
theorem IsFrom.fill (h : g.IsFrom ts) (hn : (g.node n).content.IsCollection)
    (hc : c.IsCollection) : (g.set n { g.node n with content := c }).IsFrom ts := by
  intro m
  rw [node_set]
  split
  · exact ⟨fun text htext => (hc text htext).elim, fun _ => (h n).collection hn⟩
  · exact h m

theorem grows_fill (hc : c.IsCollection) : g.Grows (g.set n { g.node n with content := c }) := by
  intro m hm
  rw [node_set]
  split
  · next heq => exact ⟨hc, by rw [heq.1]⟩
  · exact ⟨hm, rfl⟩

end Graph

namespace Reading

/-! ## Steps of reading -/

/-- From a state as described by `P`, does the step lead to a result and a state as described by
`Q`, or end in a fault of the class? -/
def Triple {α : Type} (E : Fault → Prop) (P : Reader → Prop) (x : Reading α)
    (Q : α → Reader → Prop) : Prop :=
  ∀ r, P r → match x.run r with
    | .ok (a, r') => Q a r'
    | .error f => E f

section

variable {α β : Type} {E : Fault → Prop} {P P' : Reader → Prop} {Q Q' : α → Reader → Prop}
  {R : β → Reader → Prop}

theorem triple_pure {a : α} (h : ∀ r, P r → Q a r) : Triple E P (pure a) Q := h

theorem triple_throw {f : Fault} (h : E f) : Triple E P (throw f : Reading α) Q := fun _ _ => h

theorem Triple.bind {x : Reading α} {k : α → Reading β} (hx : Triple E P x Q)
    (hk : ∀ a, Triple E (Q a) (k a) R) : Triple E P (x >>= k) R := by
  intro r hr
  have hx := hx r hr
  show match (x.run r >>= fun p => (k p.1).run p.2) with | .ok (b, r') => R b r' | .error f => E f
  cases hrun : x.run r with
  | error f =>
    rw [hrun] at hx
    exact hx
  | ok p =>
    rw [hrun] at hx
    exact hk p.1 p.2 hx

theorem Triple.mono {x : Reading α} (h : Triple E P x Q) (hP : ∀ r, P' r → P r)
    (hQ : ∀ a r, Q a r → Q' a r) : Triple E P' x Q' := by
  intro r hr
  have h := h r (hP r hr)
  cases hrun : x.run r with
  | error f =>
    rw [hrun] at h
    exact h
  | ok p =>
    rw [hrun] at h
    exact hQ _ _ h

theorem Triple.map {x : Reading α} (f : α → β) (h : Triple E P x fun a r => R (f a) r) :
    Triple E P (f <$> x) R := by
  rw [← bind_pure_comp]
  exact h.bind fun a => triple_pure fun _ => id

theorem Triple.ite {c : Prop} [Decidable c] {x y : Reading α} (hx : c → Triple E P x Q)
    (hy : ¬c → Triple E P y Q) : Triple E P (if c then x else y) Q := by
  split
  · next h => exact hx h
  · next h => exact hy h

/-- A fact about no state may be used in a step. -/
theorem triple_of_fact {p : Prop} {x : Reading α} (h : p → Triple E P x Q) :
    Triple E (fun r => P r ∧ p) x Q :=
  fun r hr => h hr.2 r hr.1

/-- A step from a state that is known. -/
theorem triple_from {x : Reading α} (h : ∀ r, P r → Triple E (· = r) x Q) : Triple E P x Q :=
  fun r hr => h r hr r rfl

theorem triple_get : Triple E P get fun a r => a = r ∧ P r := fun _ h => ⟨rfl, h⟩

theorem triple_set {r' : Reader} {Q : PUnit → Reader → Prop} (h : ∀ r, P r → Q ⟨⟩ r') :
    Triple E P (set r') Q := h

theorem triple_modify {change : Reader → Reader} {Q : PUnit → Reader → Prop}
    (h : ∀ r, P r → Q ⟨⟩ (change r)) : Triple E P (modify change) Q := h

end

/-! ## The account of a reading -/

/-- What is read: tokens, with the fault that ends them, if one does. So many collections can be
inside one another. -/
structure Source where
  tokens : List Token
  fault : Option (Nat × Fault)
  room : Nat

/-- The tokens of a text, with so much room for collections. -/
def Source.ofText (room : Nat) (cs : List Char) : Source where
  tokens := (Yaml.tokens cs).1
  fault := (Yaml.tokens cs).2
  room := room

/-- Can the fault end the reading of the tokens? It is of their form, ends them, or comes of too
many collections inside one another, each of which took a token. -/
def EndsReading (src : Source) (f : Fault) : Prop :=
  f = .malformed ∨ (∃ n, src.fault = some (n, f)) ∨
    f = .value .tooDeep ∧ src.room ≤ src.tokens.length

/-- Are there no more tokens left than those that the collections around them have not taken? -/
def Fits (src : Source) (depth : Nat) (left : List Token) : Prop :=
  left.length + depth ≤ src.tokens.length

/-- The account of a reading: what is left are the last tokens, as described by `Q`, all nodes go
back to the tokens, the collections of an earlier graph are kept, and so many collections are
around the next token. -/
structure IsAt (src : Source) (Q : List Token → Prop) (depth : Nat) (g : Graph) (r : Reader) :
    Prop where
  left : r.tokens <:+ src.tokens
  fault : ∀ n f, r.fault = some (n, f) → ∃ n, src.fault = some (n, f)
  nodes : r.graph.IsFrom src.tokens
  grows : g.Grows r.graph
  room_eq : r.room + depth = src.room
  fits : Q r.tokens

variable {src : Source} {Q Q' : List Token → Prop} {d : Nat} {g : Graph}

/-- The account of a reading before the given token. -/
def IsNext (src : Source) (Q : List Token → Prop) (depth : Nat) (g : Graph) (t : Token)
    (r : Reader) : Prop :=
  IsAt src Q depth g r ∧ r.tokens.head? = some t

/-- The account after a token was dropped. -/
theorem IsAt.dropped {r : Reader} (h : IsAt src Q d g r) (hQ : Q' r.tokens.tail) :
    IsAt src Q' d g { r with
      tokens := r.tokens.tail
      fault := r.fault.map fun (count, f) => (count - 1, f) } := by
  refine { h with left := (List.tail_suffix _).trans h.left, fault := fun n f hf => ?_, fits := hQ }
  obtain ⟨⟨n', f'⟩, hr, hf⟩ := Option.map_eq_some_iff.1 hf
  cases hf
  exact h.fault _ _ hr

theorem triple_refuse {α : Type} {P : Reader → Prop} {R : α → Reader → Prop} :
    Triple (EndsReading src) P refuse R :=
  triple_throw (.inl rfl)

/-- The next token is one of the text, unless the fault of the tokens is met. -/
theorem triple_peek : Triple (EndsReading src) (IsAt src Q d g) peek fun t r =>
    IsNext src Q d g t r ∧ t ∈ src.tokens := by
  unfold peek
  refine triple_get.bind fun r => ?_
  split
  · next f hf =>
    refine triple_from fun r' h => triple_throw ?_
    obtain ⟨rfl, h⟩ := h
    exact .inr (.inl (h.fault _ _ hf))
  · next t ts hts _ =>
    refine triple_pure fun r' h => ?_
    obtain ⟨rfl, h⟩ := h
    have ht : r.tokens.head? = some t := by rw [hts, List.head?_cons]
    exact ⟨⟨h, ht⟩, h.left.subset (List.mem_of_mem_head? ht)⟩
  · exact triple_refuse

theorem triple_drop {t : Token} (hQ : ∀ ts, Q (t :: ts) → Q' ts) :
    Triple (EndsReading src) (IsNext src Q d g t) drop fun _ => IsAt src Q' d g := by
  refine triple_modify fun r h => ?_
  obtain ⟨h, ht⟩ := h
  obtain ⟨ts, hts⟩ := List.head?_eq_some_iff.1 ht
  refine h.dropped ?_
  rw [hts]
  exact hQ ts (hts ▸ h.fits)

theorem triple_dropIf {t : Token} (hdrop : ∀ ts, Q (t :: ts) → Q' ts)
    (hkeep : ∀ t' ts, t' ≠ t → Q (t' :: ts) → Q' (t' :: ts)) :
    Triple (EndsReading src) (IsAt src Q d g) (dropIf t) fun _ => IsAt src Q' d g := by
  unfold dropIf
  refine triple_peek.bind fun t' => triple_of_fact fun _ => .ite (fun heq => ?_) fun hne => ?_
  · exact (triple_drop fun ts => heq ▸ hdrop ts).bind fun _ => triple_pure fun _ => id
  · refine triple_pure fun r h => ?_
    obtain ⟨h, ht⟩ := h
    obtain ⟨ts, hts⟩ := List.head?_eq_some_iff.1 ht
    exact { h with fits := hts ▸ hkeep t' ts hne (hts ▸ h.fits) }

theorem Fits.tail {t : Token} {ts : List Token} (h : Fits src d (t :: ts)) : Fits src d ts :=
  Nat.le_trans (Nat.add_le_add_right (Nat.le_succ _) d) h

/-- Does the step keep the account of a reading? -/
def Keeps {α : Type} (src : Source) (d : Nat) (x : Reading α) : Prop :=
  ∀ g, Triple (EndsReading src) (IsAt src (Fits src d) d g) x fun _ => IsAt src (Fits src d) d g

section

variable {α β : Type}

theorem keeps_pure (a : α) : Keeps src d (pure a) := fun _ => triple_pure fun _ => id

theorem keeps_refuse : Keeps src d (refuse : Reading α) := fun _ => triple_refuse

theorem Keeps.bind {x : Reading α} {k : α → Reading β} (hx : Keeps src d x)
    (hk : ∀ a, Keeps src d (k a)) : Keeps src d (x >>= k) :=
  fun g => (hx g).bind fun a => hk a g

theorem Keeps.ite {c : Prop} [Decidable c] {x y : Reading α} (hx : Keeps src d x)
    (hy : Keeps src d y) : Keeps src d (if c then x else y) :=
  fun g => .ite (fun _ => hx g) fun _ => hy g

/-- A step that looks at the next token, which is one of the text. -/
theorem Keeps.after_peek {k : Token → Reading α} (hk : ∀ t, t ∈ src.tokens → Keeps src d (k t)) :
    Keeps src d (peek >>= k) := fun g =>
  triple_peek.bind fun t => triple_of_fact fun ht => (hk t ht g).mono (fun _ => And.left)
    fun _ _ => id

theorem keeps_drop : Keeps src d drop := by
  refine fun g => triple_modify fun r h => h.dropped ?_
  have hshorter : r.tokens.tail.length ≤ r.tokens.length := (List.tail_suffix _).length_le
  exact Nat.le_trans (Nat.add_le_add_right hshorter d) h.fits

theorem keeps_dropIf (t : Token) : Keeps src d (dropIf t) :=
  fun _ => triple_dropIf (fun _ => Fits.tail) fun _ _ _ => id

theorem keeps_expect (t : Token) : Keeps src d (expect t) :=
  (keeps_dropIf t).bind fun _ => .ite keeps_refuse (keeps_pure _)

/-- A new node goes back to the tokens. -/
theorem triple_push {x : Node} (hx : x.IsFrom src.tokens) :
    Triple (EndsReading src) (IsAt src Q d g) (push x) fun n r =>
      IsAt src Q d g r ∧ r.graph.node n = x := by
  unfold push
  refine triple_get.bind fun r => triple_from fun r' h => ?_
  obtain ⟨rfl, h⟩ := h
  refine (triple_set fun _ _ => ?_).bind fun _ => triple_pure fun _ => id
  refine ⟨{ h with
    nodes := h.nodes.push hx
    grows := h.grows.trans (Graph.grows_push _ _) }, ?_⟩
  exact (Graph.node_push _ _ _).trans (if_pos rfl)

theorem keeps_push {x : Node} (hx : x.IsFrom src.tokens) : Keeps src d (push x) :=
  fun _ => (triple_push hx).mono (fun _ => id) fun _ _ h => h.1

theorem isFrom_scalar {ts : List Token} {tag : Tag} {text : Text} (ht : HasText ts text)
    (hk : HasKind ts tag text) : Node.IsFrom ts ⟨tag, .scalar text⟩ where
  scalar text' h := by
    cases h
    exact ⟨ht, hk⟩
  collection h := (h _ rfl).elim

theorem keeps_absent : Keeps src d absent :=
  keeps_push (isFrom_scalar (.inl rfl) (.inr (.inr (.inl rfl))))

/-- Giving a node its anchor changes nothing else. -/
theorem triple_bindAnchor {P : Reader → Prop} (anchor : Option String) (n : Nat)
    (hP : ∀ r anchors, P r → P { r with anchors }) :
    Triple (EndsReading src) P (bindAnchor anchor n) fun _ => P := by
  unfold bindAnchor
  split
  · refine triple_get.bind fun r => .ite (fun _ => triple_refuse) fun _ => ?_
    exact triple_modify fun r' h => hP _ _ h.2
  · exact triple_pure fun _ => id

theorem keeps_bindAnchor (anchor : Option String) (n : Nat) :
    Keeps src d (bindAnchor anchor n) :=
  fun _ => triple_bindAnchor anchor n fun _ _ h => { h with }

end

end Reading

end FatInstall.Yaml
