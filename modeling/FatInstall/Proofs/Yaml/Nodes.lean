import FatInstall.Proofs.Yaml.Account

/-!
# Where nodes come from

Reading a node by the grammar keeps the account of all nodes so far. So every node of a document
goes back to tokens, and what ends the reading of a document is a fault of its tokens or of its
form, or collections inside one another, one for each of too many tokens.

* `Reading.triple_collection`: a collection is read by its parts.
* `Reading.allKeep`: reading a node, in whatever form, keeps the account.
* `Graph.ofText_fault`, `Graph.isFrom_of_ofText`: what comes of a text.
-/

namespace FatInstall.Yaml

namespace Reading

variable {src : Source} {Q : List Token → Prop} {d : Nat} {g : Graph}

/-! ## The properties of nodes -/

/-- The name of a tag goes back to a tag among the tokens. -/
def NameIsFrom (ts : List Token) (name : Option String) : Prop := name.isSome → HasTag ts

theorem hasKind_scalarTag {ts : List Token} {name : Option String} (h : NameIsFrom ts name)
    (text : Text) (isPlain : Bool) : HasKind ts (scalarTag name text isPlain) text := by
  cases name with
  | none =>
    unfold scalarTag
    dsimp only
    split
    · exact .inr (.inr (.inr rfl))
    · exact .inr (.inl rfl)
  | some n => exact .inl (h rfl)

theorem hasTag_or_collectionTag {ts : List Token} {name : Option String} {usual : Tag}
    (h : NameIsFrom ts name) (husual : usual.IsUsual) :
    HasTag ts ∨ (collectionTag name usual).IsUsual := by
  cases name with
  | none => exact .inr husual
  | some n => exact .inl (h rfl)

theorem triple_tagName {P : Reader → Prop} (handle : Option String) (rest : String) :
    Triple (EndsReading src) P (tagName handle rest) fun _ => P := by
  unfold tagName
  split
  · exact triple_pure fun _ => id
  · refine triple_get.bind fun r => ?_
    split
    · exact triple_pure fun _ h => h.2
    · exact triple_refuse

theorem keeps_anchor? : Keeps src d anchor? := by
  refine .after_peek fun t _ => ?_
  split
  · exact keeps_drop.bind fun _ => keeps_pure _
  · exact keeps_pure _

/-- A tag that is next is one among the tokens. -/
theorem triple_tag? : Triple (EndsReading src) (IsAt src (Fits src d) d g) tag? fun tag r =>
    IsAt src (Fits src d) d g r ∧ (tag.isSome → HasTag src.tokens) := by
  unfold tag?
  refine triple_peek.bind fun t => triple_of_fact fun ht => ?_
  split
  · next handle rest =>
    refine ((keeps_drop g).mono (fun _ => And.left) fun _ _ => id).bind fun _ => ?_
    exact triple_pure fun _ h => ⟨h, fun _ => ⟨handle, rest, ht⟩⟩
  · exact triple_pure fun _ h => ⟨h.1, nofun⟩

/-- The name of a node's tag goes back to a tag among the tokens. -/
theorem triple_properties : Triple (EndsReading src) (IsAt src (Fits src d) d g) properties
    fun p r => IsAt src (Fits src d) d g r ∧ NameIsFrom src.tokens p.2 := by
  unfold properties
  refine (keeps_anchor? g).bind fun first => triple_tag?.bind fun tag => ?_
  refine triple_of_fact fun htag => ?_
  cases tag with
  | none =>
    have hname : ∀ anchor : Option String, Triple (EndsReading src) (IsAt src (Fits src d) d g)
        (pure (anchor, none)) fun p r => IsAt src (Fits src d) d g r ∧ NameIsFrom src.tokens p.2 :=
      fun _ => triple_pure fun _ h => ⟨h, nofun⟩
    exact .ite (fun _ => (keeps_anchor? g).bind hname) fun _ => hname first
  | some tag =>
    have hread : Triple (EndsReading src) (IsAt src (Fits src d) d g)
        (some <$> tagName tag.1 tag.2) fun _ => IsAt src (Fits src d) d g :=
      (triple_tagName tag.1 tag.2).map some
    have hname : ∀ anchor : Option String, Triple (EndsReading src) (IsAt src (Fits src d) d g)
        (do return (anchor, ← some <$> tagName tag.1 tag.2))
        fun p r => IsAt src (Fits src d) d g r ∧ NameIsFrom src.tokens p.2 :=
      fun _ => hread.bind fun _ => triple_pure fun _ h => ⟨h, fun _ => htag rfl⟩
    exact .ite (fun _ => (keeps_anchor? g).bind hname) fun _ => hname first

/-! ## Collections -/

/-- A collection may be gone into unless there are too many around it. -/
theorem triple_enter {n : Nat} {x : Node} (hQ : ∀ ts, Q ts → Fits src d ts) :
    Triple (EndsReading src) (fun r => IsAt src Q d g r ∧ r.graph.node n = x) enter fun _ r =>
      IsAt src Q (d + 1) g r ∧ r.graph.node n = x := by
  unfold enter
  refine triple_get.bind fun r => triple_from fun r' h => ?_
  obtain ⟨rfl, h, hn⟩ := h
  refine .ite (fun hdeep => triple_throw ?_) fun _ => triple_set fun _ _ => ?_
  · have hfits : r.tokens.length + d ≤ src.tokens.length := hQ _ h.fits
    have hroom : r.room + d = src.room := h.room_eq
    exact .inr (.inr ⟨rfl, by omega⟩)
  · have hroom : r.room - 1 + (d + 1) = src.room := by
      rw [← h.room_eq]
      omega
    exact ⟨{ h with room_eq := hroom }, hn⟩

theorem triple_leave : Triple (EndsReading src) (IsAt src (Fits src (d + 1)) (d + 1) g) leave
    fun _ => IsAt src (Fits src d) d g :=
  triple_modify fun _ h => { h with
    room_eq := (Nat.add_right_comm _ 1 d).trans h.room_eq
    fits := Nat.le_of_succ_le h.fits }

/-- The number of a collection is still one when its parts were read, and is filled with them. -/
theorem triple_fill {g' : Graph} {n : Nat} {c : Content} (hg : g.Grows g')
    (hn : (g'.node n).content.IsCollection) (hc : c.IsCollection) :
    Triple (EndsReading src) (IsAt src Q d g') (fill n c) fun _ => IsAt src Q d g :=
  triple_modify fun _ h => { h with
    nodes := h.nodes.fill (h.grows n hn).1 hc
    grows := (hg.trans h.grows).trans (Graph.grows_fill hc) }

/-- A collection is read by its parts, which have one more collection around them. -/
theorem triple_collection {anchor : Option String} {tag : Tag} {parts : Reading Content}
    (htag : HasTag src.tokens ∨ tag.IsUsual) (hQ : ∀ ts, Q ts → Fits src d ts)
    (hparts : ∀ g, Triple (EndsReading src) (IsAt src Q (d + 1) g) parts fun c r =>
      IsAt src (Fits src (d + 1)) (d + 1) g r ∧ c.IsCollection) :
    Triple (EndsReading src) (IsAt src Q d g) (collection anchor tag parts) fun _ =>
      IsAt src (Fits src d) d g := by
  have hnode : Node.IsFrom src.tokens ⟨tag, .sequence []⟩ := ⟨nofun, fun _ => htag⟩
  unfold collection
  refine (triple_push hnode).bind fun n => ?_
  refine (triple_bindAnchor anchor n fun r anchors h => ⟨{ h.1 with }, h.2⟩).bind fun _ => ?_
  refine (triple_enter hQ).bind fun _ => triple_from fun r h => ?_
  obtain ⟨h, hn⟩ := h
  have hstart : ∀ r', r' = r → IsAt src Q (d + 1) r.graph r' := by
    rintro _ rfl
    exact { h with grows := .refl _ }
  have hcollection : (r.graph.node n).content.IsCollection := by
    rw [hn]
    exact nofun
  refine ((hparts r.graph).mono hstart fun _ _ => id).bind fun c => triple_of_fact fun hc => ?_
  refine (triple_fill h.grows hcollection hc).bind fun _ => ?_
  exact triple_leave.bind fun _ => triple_pure fun _ => id

/-- The first token of a collection makes room for the collection. -/
theorem triple_dropFirst {t : Token} : Triple (EndsReading src) (IsNext src (Fits src d) d g t) drop
    fun _ => IsAt src (Fits src (d + 1)) d g := by
  refine triple_drop fun ts hfits => ?_
  have hfits : ts.length + 1 + d ≤ src.tokens.length := hfits
  show ts.length + (d + 1) ≤ src.tokens.length
  omega

/-- Do the steps keep the account of a reading, and come to a collection? -/
def Makes (src : Source) (d : Nat) (x : Reading Content) : Prop :=
  ∀ g, Triple (EndsReading src) (IsAt src (Fits src d) d g) x fun c r =>
    IsAt src (Fits src d) d g r ∧ c.IsCollection

theorem Keeps.makes {α : Type} {x : Reading α} (hx : Keeps src d x) {make : α → Content}
    (hmake : ∀ a, (make a).IsCollection) : Makes src d (make <$> x) :=
  fun g => ((hx g).mono (fun _ => id) fun a _ h => ⟨h, hmake a⟩).map make

/-- A collection whose first token was dropped. -/
theorem triple_opened (anchor : Option String) {tag : Tag} {parts : Reading Content}
    (htag : HasTag src.tokens ∨ tag.IsUsual) (hparts : Makes src (d + 1) parts) :
    Triple (EndsReading src) (IsAt src (Fits src (d + 1)) d g) (collection anchor tag parts)
      fun _ => IsAt src (Fits src d) d g :=
  triple_collection htag (fun _ hfits => Nat.le_of_succ_le hfits) hparts

theorem keeps_bare {anchor name : Option String} (hname : NameIsFrom src.tokens name) :
    Keeps src d (bare anchor name) := by
  have hkind : HasKind src.tokens (scalarTag name "" true) "" := hasKind_scalarTag hname "" true
  have hrest : Keeps src d (do
      let n ← push ⟨scalarTag name "" true, .scalar ""⟩
      bindAnchor anchor n
      return n) :=
    (keeps_push (isFrom_scalar (.inl rfl) hkind)).bind fun n =>
      (keeps_bindAnchor anchor n).bind fun _ => keeps_pure n
  exact .ite keeps_refuse hrest

theorem keeps_nodeUnless {stops : List Token} {read : Reading Nat} (h : Keeps src d read) :
    Keeps src d (nodeUnless stops read) :=
  .after_peek fun _ _ => .ite keeps_absent h

/-- A value, which may be absent, and what follows. -/
theorem triple_value {α : Type} {stops : List Token} {read : Reading Nat} {k : Nat → Reading α}
    {R : α → Reader → Prop} (h : Keeps src d read)
    (hk : ∀ n, Triple (EndsReading src) (IsAt src (Fits src d) d g) (k n) R) :
    Triple (EndsReading src) (IsAt src (Fits src d) d g)
      (do if ← dropIf .value then nodeUnless stops read >>= k else absent >>= k) R :=
  (keeps_dropIf _ g).bind fun _ =>
    .ite (fun _ => (keeps_nodeUnless h g).bind hk) fun _ => (keeps_absent g).bind hk

/-- What comes after a comma, unless it is the first. -/
theorem Keeps.after_comma {α : Type} {first : Bool} {x : Reading α} (hx : Keeps src d x) :
    Keeps src d (if !first then do expect .flowEntry; x else x) :=
  .ite ((keeps_expect _).bind fun _ => hx) hx

/-! ## Nodes -/

/-- Do all parts of the grammar keep the account of a reading, with so much fuel? -/
structure AllKeep (src : Source) (fuel : Nat) : Prop where
  node : ∀ d block indentless, Keeps src d (Reading.node fuel block indentless)
  blockItems : ∀ d, Keeps src d (Reading.blockItems fuel)
  indentlessItems : ∀ d, Keeps src d (Reading.indentlessItems fuel)
  /-- A sequence that has no start of its own takes its first token after it is gone into. -/
  firstItem : ∀ d g, Triple (EndsReading src)
    (IsAt src (fun ts => Fits src d ts ∧ ts.head? = some .blockEntry) (d + 1) g)
    (Reading.indentlessItems fuel) fun _ => IsAt src (Fits src (d + 1)) (d + 1) g
  blockEntries : ∀ d, Keeps src d (Reading.blockEntries fuel)
  flowItems : ∀ d first, Keeps src d (Reading.flowItems fuel first)
  flowEntries : ∀ d first, Keeps src d (Reading.flowEntries fuel first)

theorem allKeep_zero : AllKeep src 0 where
  node _ _ _ := keeps_refuse
  blockItems _ := keeps_refuse
  indentlessItems _ := keeps_refuse
  firstItem _ _ := triple_refuse
  blockEntries _ := keeps_refuse
  flowItems _ _ := keeps_refuse
  flowEntries _ _ := keeps_refuse

namespace AllKeep

variable {fuel : Nat} (h : AllKeep src fuel)

include h

theorem node_succ (block indentless : Bool) :
    Keeps src d (Reading.node (fuel + 1) block indentless) := by
  unfold Reading.node
  refine .after_peek fun t ht => ?_
  split
  · next name =>
    refine keeps_drop.bind fun _ g => triple_get.bind fun r => ?_
    split
    · exact triple_pure fun _ h => h.2
    · exact triple_refuse
  · refine fun g => triple_properties.bind fun p => triple_of_fact fun hname => ?_
    refine triple_peek.bind fun t => triple_of_fact fun ht => ?_
    have hbare : ∀ t, Triple (EndsReading src) (IsNext src (Fits src d) d g t) (bare p.1 p.2)
        fun _ => IsAt src (Fits src d) d g :=
      fun _ => (keeps_bare hname g).mono (fun _ => And.left) fun _ _ => id
    have hitems : ∀ {x : Reading (List Nat)}, Keeps src (d + 1) x →
        Triple (EndsReading src) (IsAt src (Fits src (d + 1)) d g)
          (collection p.1 (collectionTag p.2 .seq) (Content.sequence <$> x))
          fun _ => IsAt src (Fits src d) d g :=
      fun hx => triple_opened p.1 (hasTag_or_collectionTag hname (.inl rfl)) (hx.makes nofun)
    have hentries : ∀ {x : Reading (List (Nat × Nat))}, Keeps src (d + 1) x →
        Triple (EndsReading src) (IsAt src (Fits src (d + 1)) d g)
          (collection p.1 (collectionTag p.2 .map) (Content.mapping <$> x))
          fun _ => IsAt src (Fits src d) d g :=
      fun hx => triple_opened p.1 (hasTag_or_collectionTag hname (.inr rfl)) (hx.makes nofun)
    split
    · next text isPlain =>
      have hnode := isFrom_scalar (.inr ⟨isPlain, ht⟩) (hasKind_scalarTag hname text isPlain)
      refine ((keeps_drop g).mono (fun _ => And.left) fun _ _ => id).bind fun _ => ?_
      exact (keeps_push hnode g).bind fun n => (keeps_bindAnchor _ n g).bind fun _ =>
        keeps_pure n g
    · exact triple_dropFirst.bind fun _ => hitems (h.flowItems _ _)
    · exact triple_dropFirst.bind fun _ => hentries (h.flowEntries _ _)
    · refine .ite (fun _ => ?_) fun _ => hbare _
      have hparts : ∀ g, Triple (EndsReading src)
          (IsAt src (fun ts => Fits src d ts ∧ ts.head? = some .blockEntry) (d + 1) g)
          (Content.sequence <$> Reading.indentlessItems fuel)
          fun c r => IsAt src (Fits src (d + 1)) (d + 1) g r ∧ c.IsCollection :=
        fun g => ((h.firstItem d g).mono (fun _ => id) fun a _ h => ⟨h, nofun⟩).map _
      exact (triple_collection (hasTag_or_collectionTag hname (.inl rfl)) (fun _ => And.left)
        hparts).mono (fun r hr => { hr.1 with fits := ⟨hr.1.fits, hr.2⟩ }) fun _ _ => id
    · exact .ite (fun _ => triple_dropFirst.bind fun _ => hitems (h.blockItems _))
        fun _ => hbare _
    · exact .ite (fun _ => triple_dropFirst.bind fun _ => hentries (h.blockEntries _))
        fun _ => hbare _
    · exact hbare _

theorem blockItems_succ : Keeps src d (Reading.blockItems (fuel + 1)) := by
  unfold Reading.blockItems
  refine (keeps_dropIf _).bind fun _ => .ite ?_ ?_
  · exact (keeps_nodeUnless (h.node _ _ _)).bind fun _ =>
      (h.blockItems _).bind fun _ => keeps_pure _
  · exact (keeps_expect _).bind fun _ => keeps_pure _

/-- The items of a sequence without an end, once it is clear whether there is one more. -/
theorem indentlessItems_rest (another : Bool) : Keeps src d
    (if another then do
        let item ← nodeUnless [.blockEntry, .key, .value, .blockEnd] (Reading.node fuel true false)
        return item :: (← Reading.indentlessItems fuel)
      else return []) := by
  refine .ite ?_ (keeps_pure _)
  exact (keeps_nodeUnless (h.node _ _ _)).bind fun _ =>
    (h.indentlessItems _).bind fun _ => keeps_pure _

theorem indentlessItems_succ : Keeps src d (Reading.indentlessItems (fuel + 1)) := by
  unfold Reading.indentlessItems
  exact (keeps_dropIf _).bind fun another => h.indentlessItems_rest another

theorem firstItem_succ : Triple (EndsReading src)
    (IsAt src (fun ts => Fits src d ts ∧ ts.head? = some .blockEntry) (d + 1) g)
    (Reading.indentlessItems (fuel + 1)) fun _ => IsAt src (Fits src (d + 1)) (d + 1) g := by
  unfold Reading.indentlessItems
  refine (triple_dropIf (fun ts hfirst => ?_) fun t ts hne hfirst => ?_).bind
    fun another => h.indentlessItems_rest another g
  · have hfits : ts.length + 1 + d ≤ src.tokens.length := hfirst.1
    show ts.length + (d + 1) ≤ src.tokens.length
    omega
  · exact (hne (Option.some.inj hfirst.2)).elim

theorem blockEntries_succ : Keeps src d (Reading.blockEntries (fuel + 1)) := by
  unfold Reading.blockEntries
  refine (keeps_dropIf _).bind fun _ => .ite ?_ ?_
  · refine (keeps_nodeUnless (h.node _ _ _)).bind fun key => fun g => ?_
    refine triple_value (h.node _ _ _) fun value => ?_
    exact (h.blockEntries _).bind (fun _ => keeps_pure _) g
  · exact (keeps_expect _).bind fun _ => keeps_pure _

theorem flowItems_succ (first : Bool) : Keeps src d (Reading.flowItems (fuel + 1) first) := by
  have hrest : ∀ item : Nat, Keeps src d do return item :: (← Reading.flowItems fuel false) :=
    fun _ => (h.flowItems _ _).bind fun _ => keeps_pure _
  unfold Reading.flowItems
  refine (keeps_dropIf _).bind fun _ => .ite (keeps_pure _) (.after_comma fun g => ?_)
  refine triple_peek.bind fun t => triple_of_fact fun ht => ?_
  split
  · exact ((keeps_drop.bind fun _ => keeps_pure _) g).mono (fun _ => And.left) fun _ _ => id
  · refine triple_dropFirst.bind fun _ => Triple.bind ?_ fun item => hrest item g
    refine triple_opened none (.inr (.inr rfl)) fun g' => ?_
    refine (keeps_nodeUnless (h.node _ _ _) g').bind fun key => ?_
    exact triple_value (h.node _ _ _) fun value => triple_pure fun _ h => ⟨h, nofun⟩
  · exact ((h.node _ _ _).bind hrest g).mono (fun _ => And.left) fun _ _ => id

theorem flowEntries_succ (first : Bool) :
    Keeps src d (Reading.flowEntries (fuel + 1) first) := by
  have hrest : ∀ e : Nat × Nat, Keeps src d do return e :: (← Reading.flowEntries fuel false) :=
    fun _ => (h.flowEntries _ _).bind fun _ => keeps_pure _
  unfold Reading.flowEntries
  refine (keeps_dropIf _).bind fun _ => .ite (keeps_pure _) (.after_comma ?_)
  refine .after_peek fun t _ => ?_
  split
  · exact keeps_drop.bind fun _ => keeps_pure _
  · refine keeps_drop.bind fun _ => (keeps_nodeUnless (h.node _ _ _)).bind fun key => fun g => ?_
    exact triple_value (h.node _ _ _) fun value => hrest (key, value) g
  · exact (h.node _ _ _).bind fun key => keeps_absent.bind fun value => hrest (key, value)

end AllKeep

/-- Reading a node, in whatever form, keeps the account of a reading. -/
theorem allKeep (src : Source) (fuel : Nat) : AllKeep src fuel := by
  induction fuel with
  | zero => exact allKeep_zero
  | succ fuel ih =>
    exact {
      node := fun _ => ih.node_succ
      blockItems := fun _ => ih.blockItems_succ
      indentlessItems := fun _ => ih.indentlessItems_succ
      firstItem := fun _ _ => ih.firstItem_succ
      blockEntries := fun _ => ih.blockEntries_succ
      flowItems := fun _ => ih.flowItems_succ
      flowEntries := fun _ => ih.flowEntries_succ }

/-! ## Documents -/

theorem keeps_directives (fuel : Nat) (hasVersion : Bool) :
    Keeps src d (directives fuel hasVersion) := by
  induction fuel generalizing hasVersion with
  | zero => exact keeps_refuse
  | succ fuel ih =>
    unfold directives
    refine .after_peek fun t ht => ?_
    split
    · next directive =>
      refine keeps_drop.bind fun _ => ?_
      cases directive with
      | version major => exact .ite keeps_refuse (ih true)
      | handle name start =>
        refine fun g => triple_get.bind fun r => .ite (fun _ => triple_refuse) fun _ => ?_
        exact (triple_modify fun _ h => { h.2 with }).bind fun _ => ih hasVersion g
      | other => exact ih hasVersion
    · exact fun g => triple_modify fun _ h => { h with }

theorem keeps_dropEnds (fuel : Nat) : Keeps src d (dropEnds fuel) := by
  induction fuel with
  | zero => exact keeps_pure _
  | succ fuel ih => exact (keeps_dropIf _).bind fun _ => .ite ih (keeps_pure _)

theorem keeps_onlyDocument (fuel : Nat) : Keeps src d (onlyDocument fuel) := by
  have hforget : Keeps src d (modify fun r => { r with handles := [] }) :=
    fun _ => triple_modify fun _ h => { h with }
  refine (keeps_dropIf _).bind fun _ => .ite ?_ (keeps_pure _)
  exact hforget.bind fun _ => (keeps_directives fuel false).bind fun _ =>
    (keeps_expect _).bind fun _ => keeps_refuse

theorem keeps_document : Keeps src d document := by
  have hrest : ∀ fuel (n : Nat), Keeps src d do
      dropEnds fuel
      onlyDocument fuel
      return some n :=
    fun fuel n => (keeps_dropEnds fuel).bind fun _ => (keeps_onlyDocument fuel).bind fun _ =>
      keeps_pure _
  have hnode : ∀ fuel, Keeps src d (Reading.node fuel true false) :=
    fun fuel => (allKeep src fuel).node _ _ _
  unfold document
  refine fun g => triple_get.bind fun r => Triple.bind (triple_peek.mono (fun _ => And.right)
    fun _ _ => id) fun t => triple_of_fact fun ht => ?_
  split
  · exact triple_pure fun _ h => h.1
  · refine Triple.mono (Keeps.bind (keeps_directives _ false) (fun _ => ?_) g) (fun _ => And.left)
      fun _ _ => id
    refine .ite ?_ ?_
    · refine (keeps_expect _).bind fun _ => .after_peek fun t' _ => .ite ?_ ?_
      · exact keeps_absent.bind (hrest _)
      · exact (hnode _).bind (hrest _)
    · exact (hnode _).bind (hrest _)

end Reading

/-! ## Texts -/

namespace Graph

variable {room : Nat} {cs : List Char}

/-- The reading of a text keeps the account of all its nodes. -/
theorem ofText_account (room : Nat) (cs : List Char) :
    match Graph.ofText room cs with
    | .ok (g, _) => g.IsFrom (tokens cs).1
    | .error f => Reading.EndsReading (.ofText room cs) f := by
  have hstart : Reading.IsAt (.ofText room cs) (Reading.Fits (.ofText room cs) 0) 0 .empty
      ⟨(tokens cs).1, (tokens cs).2, .empty, [], [], room⟩ := by
    refine ⟨List.suffix_refl _, fun n f h => ⟨n, h⟩, fun m => ?_, .refl _, rfl, Nat.le_refl _⟩
    exact Reading.isFrom_scalar (.inl rfl) (.inr (.inl rfl))
  have hread := Reading.keeps_document _ _ hstart
  unfold ofText
  dsimp only
  cases hrun : Reading.document.run ⟨(tokens cs).1, (tokens cs).2, .empty, [], [], room⟩ with
  | ok p =>
    rw [hrun] at hread
    exact hread.nodes
  | error f =>
    rw [hrun] at hread
    exact hread

/-- What ends the reading of a text is a fault of its form or of its tokens, or comes of too many
collections inside one another. -/
theorem ofText_fault {f : Fault} (h : Graph.ofText room cs = .error f) :
    Reading.EndsReading (.ofText room cs) f := by
  have haccount := ofText_account room cs
  rwa [h] at haccount

/-- All nodes of a text that is read go back to its tokens. -/
theorem isFrom_of_ofText {g : Graph} {root : Option Nat}
    (h : Graph.ofText room cs = .ok (g, root)) : g.IsFrom (tokens cs).1 := by
  have haccount := ofText_account room cs
  rwa [h] at haccount

end Graph

end FatInstall.Yaml
