import FatInstall.Proofs.Host.Removal
import Mathlib.Data.List.Induction
import Mathlib.Data.List.Infix

/-!
# Paths that go straight

A path goes straight if none of its names leads upwards and no link lies on its way or at its end.
Its place is then known from its names alone, whatever is on the host, and a walk gets there if
there are only directories above it.

* `Tree.IsClosed`: every entry stands in a directory.
* `Host.spot`: the place that the names of a path lead to.
* `Host.IsStraight`: the path goes straight.
* `locate_of_isOpen`, `eq_spot_of_locate`, `locate_of_hasRoom`: where its walk ends.
-/

namespace FatInstall

open Text

/-! ## Names that lead upwards -/

theorem Text.eq_cons_of_splitChar_dot {bs rest : List UInt8}
    (h : splitChar bs = some ('.', rest)) : bs = 46 :: rest := by
  unfold splitChar at h
  obtain ⟨n, -, hn⟩ := List.exists_of_findSome?_eq_some h
  split at hn
  · next hc =>
    cases hn
    obtain ⟨s, hs, hl⟩ := Option.map_eq_some_iff.1 hc
    have hdot : s = "." := String.toList_inj.1 (by rw [hl]; rfl)
    unfold String.fromUTF8? at hs
    split at hs
    · cases hs
      have hbytes : (⟨(bs.take n).toArray⟩ : ByteArray) = ⟨#[46]⟩ :=
        congrArg String.toByteArray hdot
      have htake : bs.take n = [46] := by simpa using hbytes
      rw [← List.singleton_append, ← htake, List.take_append_drop]
    · cases hs
  · cases hn

/-- Only the bytes of dots are read as dots. -/
theorem Text.eq_dot_of_pointsOfBytes {fuel : Nat} {bs : List UInt8} (hf : bs.length ≤ fuel)
    (h : ∀ p ∈ pointsOfBytes fuel bs, p = .char '.') : ∀ b ∈ bs, b = 46 := by
  induction fuel generalizing bs with
  | zero =>
    rw [List.length_eq_zero_iff.1 (Nat.le_zero.1 hf)]
    simp
  | succ fuel ih =>
    cases bs with
    | nil => simp
    | cons b bs =>
      unfold pointsOfBytes at h
      split at h
      · next c rest hc =>
        obtain ⟨hdot, hrest⟩ := List.forall_mem_cons.1 h
        cases hdot
        cases Text.eq_cons_of_splitChar_dot hc
        exact List.forall_mem_cons.2 ⟨rfl, ih (by simpa using hf) hrest⟩
      · obtain ⟨hdot, -⟩ := List.forall_mem_cons.1 h
        have hb := b.toNat_lt
        rw [CodePoint.ofNat, dif_pos (by omega)] at hdot
        cases hdot

/-- A surrogate stands for a byte that is no dot. -/
theorem CodePoint.ne_dot_of_bytes {p : CodePoint} {bs : List UInt8} (hp : p.char? = none)
    (h : p.bytes? = some bs) : ∃ b ∈ bs, b ≠ 46 := by
  cases p with
  | char c => cases hp
  | surrogate offset =>
    simp only [CodePoint.bytes?] at h
    split at h
    · next ho =>
      cases h
      refine ⟨_, .head _, fun hb => ?_⟩
      have hb := congrArg UInt8.toNat hb
      rw [UInt8.toNat_ofNat_of_lt' (by simp [UInt8.size]; omega)] at hb
      change _ = 46 at hb
      omega
    · cases h

theorem exists_of_mapM {α β : Type} {f : α → Option β} {xs : List α} {ys : List β}
    (h : xs.mapM f = some ys) {x : α} (hx : x ∈ xs) : ∃ y ∈ ys, f x = some y := by
  induction xs generalizing ys with
  | nil => cases hx
  | cons x' xs ih =>
    rw [List.mapM_cons] at h
    obtain ⟨y, hy, h⟩ := Option.bind_eq_some_iff.1 h
    obtain ⟨ys, hys, h⟩ := Option.bind_eq_some_iff.1 h
    cases h
    rcases List.mem_cons.1 hx with rfl | hx
    · exact ⟨y, .head _, hy⟩
    · obtain ⟨z, hz, hxz⟩ := ih hys hx
      exact ⟨z, .tail _ hz, hxz⟩

/-- A piece of a path is the name of the directory above only if it is written so. -/
theorem Host.entryName_ne {piece : Text} (h : piece ≠ Path.parentName) :
    entryName piece ≠ Path.parentName := by
  unfold entryName fileName?
  split
  · exact h
  · next hall =>
    cases hb : piece.bytes? with
    | none => exact h
    | some bs =>
      intro hname
      have hpoints : pointsOfBytes bs.length bs = [.char '.', .char '.'] :=
        congrArg Text.points hname
      have hdots := Text.eq_dot_of_pointsOfBytes (Nat.le_refl bs.length) (by simp [hpoints])
      obtain ⟨bss, hm, rfl⟩ := Option.map_eq_some_iff.1 hb
      obtain ⟨p, hp, hchar⟩ : ∃ p ∈ piece.points, p.char? = none := by simpa using hall
      obtain ⟨bs, hbs, hbytes⟩ := exists_of_mapM hm hp
      obtain ⟨b, hb, hne⟩ := CodePoint.ne_dot_of_bytes hchar hbytes
      exact hne (hdots b (List.mem_flatten.2 ⟨bs, hbs, hb⟩))

namespace Host

/-! ## Closed trees -/

/-- Does every entry stand in a directory? -/
def Tree.IsClosed (t : Tree) : Prop :=
  ∀ dir name, t.get? (dir ++ [name]) ≠ none → t.get? dir = some .directory

theorem Tree.isClosed_of_entries {t : Tree}
    (h : ∀ e ∈ t.entries, t.get? e.1.dropLast = some .directory) : t.IsClosed := by
  intro dir name hp
  simp only [Tree.get?, List.append_eq_nil_iff, List.cons_ne_self, and_false, if_false] at hp
  obtain ⟨n, hn⟩ := Option.ne_none_iff_exists'.1 hp
  obtain ⟨es, es', hes, -⟩ := List.lookup_eq_some_iff.1 hn
  have hmem : (dir ++ [name], n) ∈ t.entries := by simp [hes]
  simpa using h _ hmem

variable {t : Tree} {p q : Place}

/-- Above an entry there are only directories. -/
theorem Tree.IsClosed.above (hc : t.IsClosed) (hq : q <+: p) (hne : q ≠ p)
    (hp : t.get? p ≠ none) : t.get? q = some .directory := by
  induction p using List.reverseRecOn with
  | nil => exact (hne (List.prefix_nil.1 hq)).elim
  | append_singleton dir name ih =>
    have hdir := hc dir name hp
    rcases List.prefix_concat_iff.1 hq with rfl | hq
    · exact (hne rfl).elim
    · by_cases he : q = dir
      · rwa [he]
      · exact ih hq he (by simp [hdir])

theorem Tree.IsClosed.directory (hc : t.IsClosed) (hq : q <+: p)
    (hp : t.get? p = some .directory) : t.get? q = some .directory := by
  by_cases he : q = p
  · rwa [he]
  · exact hc.above hq he (by simp [hp])

/-- Below what is no directory there is nothing. -/
theorem Tree.IsClosed.below (hc : t.IsClosed) (hq : p <+: q) (hne : p ≠ q)
    (hp : t.get? p ≠ some .directory) : t.get? q = none :=
  Classical.byContradiction fun h => hp (hc.above hq hne h)

/-- Nor is there below a place where there is nothing. -/
theorem Tree.IsClosed.missing (hc : t.IsClosed) (hp : t.get? p = none) (hq : p <+: q) :
    t.get? q = none := by
  by_cases he : p = q
  · rwa [← he]
  · exact hc.below hq he (by simp [hp])

/-! ## Straight walks -/

/-- Does the walk down the names go straight? -/
structure Tree.IsStraight (t : Tree) (here : Place) (names : List Text) : Prop where
  noParent : Path.parentName ∉ names
  noLink : ∀ pre, pre <+: names → pre ≠ [] → ∀ target, t.get? (here ++ pre) ≠ some (.link target)

/-- Are there directories on the way down the names? -/
def Tree.IsOpen (t : Tree) (here : Place) (names : List Text) : Prop :=
  ∀ pre, pre <+: names → pre ≠ [] → pre ≠ names → t.get? (here ++ pre) = some .directory

section

variable {here place : Place} {name : Text} {names rest : List Text} {last : Bool}
  {f : Follow (Except Cause Place)}

theorem Tree.IsStraight.head (hs : t.IsStraight here (name :: rest)) :
    name ≠ Path.parentName ∧ ∀ target, t.get? (here ++ [name]) ≠ some (.link target) := by
  refine ⟨fun he => hs.noParent (he ▸ .head _), ?_⟩
  exact hs.noLink [name] (List.cons_prefix_cons.2 ⟨rfl, List.nil_prefix⟩) (by simp)

theorem Tree.IsStraight.tail (hs : t.IsStraight here (name :: rest)) :
    t.IsStraight (here ++ [name]) rest where
  noParent hm := hs.noParent (.tail _ hm)
  noLink pre hpre _ := by
    rw [List.append_assoc]
    exact hs.noLink (name :: pre) (List.cons_prefix_cons.2 ⟨rfl, hpre⟩) (by simp)

theorem Tree.IsOpen.tail (ho : t.IsOpen here (name :: rest)) :
    t.IsOpen (here ++ [name]) rest := by
  intro pre hpre _ hne
  rw [List.append_assoc]
  exact ho (name :: pre) (List.cons_prefix_cons.2 ⟨rfl, hpre⟩) (by simp) (by simpa using hne)

theorem Tree.IsStraight.initial {pre : List Text} (hs : t.IsStraight here names)
    (hpre : pre <+: names) : t.IsStraight here pre where
  noParent hm := hs.noParent (hpre.subset hm)
  noLink q hq := hs.noLink q (hq.trans hpre)

/-- One step of a straight walk. -/
theorem walkNames_cons (hs : t.IsStraight here (name :: rest)) :
    walkNames t last f here (name :: rest) =
      if maxName < name.byteSize then .error .nameTooLong
      else if t.get? (here ++ [name]) = some .directory then
        walkNames t last f (here ++ [name]) rest
      else if rest = [] then .ok (here ++ [name])
      else if t.get? (here ++ [name]) = none then .error .missing
      else .error .notDirectory := by
  obtain ⟨hname, hlink⟩ := hs.head
  simp only [walkNames, hname, if_false]
  cases hg : t.get? (here ++ [name]) with
  | none => simp
  | some n =>
    cases n with
    | directory => simp
    | link target => exact (hlink target hg).elim
    | _ => simp

/-- Is none of the names too long? -/
def AreShort (names : List Text) : Prop := ∀ name ∈ names, name.byteSize ≤ maxName

theorem areShort_cons : AreShort (name :: rest) ↔ name.byteSize ≤ maxName ∧ AreShort rest :=
  List.forall_mem_cons

theorem Tree.IsOpen.head (ho : t.IsOpen here (name :: rest)) (hr : rest ≠ []) :
    t.get? (here ++ [name]) = some .directory :=
  ho [name] (List.cons_prefix_cons.2 ⟨rfl, List.nil_prefix⟩) (by simp)
    (by simpa [eq_comm] using hr)

/-- A straight walk through directories gets to its end. -/
theorem walkNames_of_isOpen (hs : t.IsStraight here names) (ho : t.IsOpen here names)
    (hshort : AreShort names) : walkNames t last f here names = .ok (here ++ names) := by
  induction names generalizing here with
  | nil => simp [walkNames]
  | cons name rest ih =>
    obtain ⟨hname, hshort⟩ := areShort_cons.1 hshort
    have hrest := ih hs.tail ho.tail hshort
    rw [List.append_assoc, List.singleton_append] at hrest
    rw [walkNames_cons hs, if_neg (Nat.not_lt.2 hname)]
    by_cases hr : rest = []
    · subst hr
      split
      · exact hrest
      · rfl
    · rw [if_pos (ho.head hr), hrest]

/-- A straight walk that ends gets to its end, and none of its names is too long. -/
theorem eq_of_walkNames (hs : t.IsStraight here names)
    (hw : walkNames t last f here names = .ok place) :
    place = here ++ names ∧ AreShort names := by
  induction names generalizing here with
  | nil =>
    cases hw
    simp [AreShort]
  | cons name rest ih =>
    rw [walkNames_cons hs] at hw
    split at hw
    · cases hw
    next hname =>
    have hname := Nat.not_lt.1 hname
    split at hw
    · obtain ⟨rfl, hshort⟩ := ih hs.tail hw
      exact ⟨by simp, areShort_cons.2 ⟨hname, hshort⟩⟩
    split at hw
    · next hr =>
      cases hw
      simp [hr, AreShort, hname]
    · split at hw <;> cases hw

/-- Is there nothing but directories on the way, as far as there is anything? -/
def Tree.HasRoom (t : Tree) (here : Place) (names : List Text) : Prop :=
  ∀ pre, pre <+: names → pre ≠ [] → pre ≠ names →
    t.get? (here ++ pre) = none ∨ t.get? (here ++ pre) = some .directory

theorem Tree.HasRoom.tail (hr : t.HasRoom here (name :: rest)) :
    t.HasRoom (here ++ [name]) rest := by
  intro pre hpre _ hne
  rw [List.append_assoc]
  exact hr (name :: pre) (List.cons_prefix_cons.2 ⟨rfl, hpre⟩) (by simp) (by simpa using hne)

/-- Where nothing but directories is on the way, a straight walk fails for a missing one or for a
name that is too long. -/
theorem walkNames_of_hasRoom (hs : t.IsStraight here names) (hr : t.HasRoom here names) {c : Cause}
    (hw : walkNames t last f here names = .error c) :
    c = .nameTooLong ∨ c = .missing ∧ ¬t.IsOpen here names := by
  induction names generalizing here with
  | nil => cases hw
  | cons name rest ih =>
    rw [walkNames_cons hs] at hw
    split at hw
    · cases hw
      exact .inl rfl
    split at hw
    · exact (ih hs.tail hr.tail hw).imp_right fun ⟨hc, ho⟩ => ⟨hc, fun h => ho h.tail⟩
    next hdir =>
    split at hw
    · cases hw
    next hrest =>
    split at hw
    · cases hw
      exact .inr ⟨rfl, fun ho => hdir (ho.head hrest)⟩
    · next hnone =>
      have hfirst := hr [name] (List.cons_prefix_cons.2 ⟨rfl, List.nil_prefix⟩) (by simp)
        (by simpa [eq_comm] using hrest)
      exact (hfirst.elim hnone hdir).elim

/-- A straight walk that is refused for a name that is too long is refused with more names too. -/
theorem walkNames_append_of_tooLong {more : List Text} (hs : t.IsStraight here (names ++ more))
    (hw : walkNames t last f here names = .error .nameTooLong) {last' : Bool}
    {f' : Follow (Except Cause Place)} :
    walkNames t last' f' here (names ++ more) = .error .nameTooLong := by
  induction names generalizing here with
  | nil => cases hw
  | cons name rest ih =>
    rw [walkNames_cons (hs.initial (List.prefix_append ..))] at hw
    rw [List.cons_append] at hs ⊢
    rw [walkNames_cons hs]
    split
    · rfl
    next hname =>
    rw [if_neg hname] at hw
    split
    · next hdir =>
      rw [if_pos hdir] at hw
      exact ih hs.tail hw
    · next hdir =>
      rw [if_neg hdir] at hw
      split at hw
      · cases hw
      · split at hw <;> cases hw

/-- A straight walk that is refused for a name that is too long is refused where there are more
directories too. -/
theorem walkNames_tooLong_of_directories {t' : Tree} (hs : t.IsStraight here names)
    (hs' : t'.IsStraight here names)
    (ht : ∀ q, t'.get? q = some .directory → t.get? q = some .directory)
    (hw : walkNames t' last f here names = .error .nameTooLong)
    {f' : Follow (Except Cause Place)} :
    walkNames t last f' here names = .error .nameTooLong := by
  induction names generalizing here with
  | nil => cases hw
  | cons name rest ih =>
    rw [walkNames_cons hs'] at hw
    rw [walkNames_cons hs]
    split
    · rfl
    next hname =>
    rw [if_neg hname] at hw
    split at hw
    · next hdir =>
      rw [if_pos (ht _ hdir)]
      exact ih hs.tail hs'.tail hw
    · split at hw
      · cases hw
      · split at hw <;> cases hw

theorem exists_walkNames (t : Tree) (last : Bool) (links : Nat) (here : Place)
    (names : List Text) :
    ∃ f, walk t last links here names = walkNames t last f here names := by
  cases links <;> exact ⟨_, rfl⟩

end

/-! ## Straight paths -/

variable {h : Host} {d : Path} {place : Place} {last : Bool}

/-- The place that the names of a path lead to from its start. -/
def spot (h : Host) (d : Path) : Place := h.start d ++ d.parts.map entryName

/-- Does the path go straight: does none of its names lead upwards, and is there no link at its
place or above? -/
structure IsStraight (h : Host) (d : Path) : Prop where
  noParent : Path.parentName ∉ d.parts
  noLink : ∀ q, q <+: h.spot d → ∀ target, h.tree.get? q ≠ some (.link target)

instance (n : Option Node) : Decidable (∀ target, n ≠ some (.link target)) :=
  match n with
  | some (.link target) => .isFalse fun h => h target rfl
  | none | some (.file _ _) | some .directory | some .device => .isTrue (by simp)

/-- What holds at a place and all those above it can be tried out. -/
instance (P : Place → Prop) [DecidablePred P] (p : Place) : Decidable (∀ q, q <+: p → P q) :=
  decidable_of_iff (∀ q ∈ p.inits, P q) (by simp [List.mem_inits])

instance (h : Host) (d : Path) : Decidable (h.IsStraight d) :=
  decidable_of_iff (Path.parentName ∉ d.parts ∧ ∀ q, q <+: h.spot d → ∀ target,
    h.tree.get? q ≠ some (.link target))
    ⟨fun hs => ⟨hs.1, hs.2⟩, fun hs => ⟨hs.noParent, hs.noLink⟩⟩

theorem IsStraight.walk (hs : h.IsStraight d) :
    h.tree.IsStraight (h.start d) (d.parts.map entryName) where
  noParent hm := by
    obtain ⟨piece, hp, he⟩ := List.mem_map.1 hm
    exact entryName_ne (fun h => hs.noParent (h ▸ hp)) he
  noLink pre hpre _ := hs.noLink _ ((List.prefix_append_right_inj _).2 hpre)

/-- A straight path leads down from its start. -/
theorem IsStraight.foothold (hs : h.IsStraight d) : h.foothold d = h.start d := by
  unfold Host.foothold
  have hup := hs.walk.noParent
  cases hnames : d.parts.map entryName with
  | nil => rfl
  | cons name rest =>
    rw [hnames] at hup
    exact if_neg fun he : name = Path.parentName => hup (he ▸ .head _)

/-- A straight path that can be followed leads to its place. -/
theorem eq_spot_of_locate (hs : h.IsStraight d) (hl : h.locate last d = .ok place) :
    place = h.spot d ∧ ¬maxPath ≤ d.text.byteSize ∧ AreShort (d.parts.map entryName) := by
  obtain ⟨hshort, -, hw⟩ := walk_of_locate hl
  obtain ⟨f, hf⟩ := exists_walkNames h.tree last maxLinks (h.start d) (d.parts.map entryName)
  obtain ⟨hplace, hnames⟩ := eq_of_walkNames hs.walk (hf ▸ hw)
  exact ⟨hplace, hshort, hnames⟩

/-- Are there directories above the place of the path? -/
def IsOpen (h : Host) (d : Path) : Prop :=
  ∀ q, q <+: h.spot d → q ≠ h.spot d → h.tree.get? q = some .directory

theorem IsOpen.walk (ho : h.IsOpen d) :
    h.tree.IsOpen (h.start d) (d.parts.map entryName) := fun _ hpre _ hne =>
  ho _ ((List.prefix_append_right_inj _).2 hpre) fun he => hne (List.append_cancel_left he)

theorem isOpen_of_get? (hc : h.tree.IsClosed) (hp : h.tree.get? (h.spot d) ≠ none) :
    h.IsOpen d :=
  fun _ hq hne => hc.above hq hne hp

/-- A path that goes straight through directories can be followed, unless it is too long. -/
theorem locate_of_isOpen (hs : h.IsStraight d) (ho : h.IsOpen d)
    (hstart : h.tree.get? (h.start d) ≠ none) (hshort : ¬maxPath ≤ d.text.byteSize)
    (hnames : AreShort (d.parts.map entryName)) : h.locate last d = .ok (h.spot d) := by
  obtain ⟨f, hf⟩ := exists_walkNames h.tree last maxLinks (h.start d) (d.parts.map entryName)
  rw [locate, if_neg hshort, hs.foothold, if_neg hstart, hf]
  exact walkNames_of_isOpen hs.walk ho.walk hnames

/-- It can be followed or is too long. -/
theorem locate_or_tooLong (hs : h.IsStraight d) (ho : h.IsOpen d)
    (hstart : h.tree.get? (h.start d) ≠ none) :
    h.locate last d = .ok (h.spot d) ∨ h.locate last d = .error .nameTooLong := by
  cases hl : h.locate last d with
  | ok place => exact .inl (congrArg _ (eq_spot_of_locate hs hl).1)
  | error c =>
    obtain ⟨f, hf⟩ := exists_walkNames h.tree last maxLinks (h.start d) (d.parts.map entryName)
    unfold locate at hl
    split at hl
    · cases hl
      exact .inr rfl
    rw [hs.foothold, if_neg hstart, hf] at hl
    have hroom : h.tree.HasRoom (h.start d) (d.parts.map entryName) :=
      fun pre hpre hne hne' => .inr (ho.walk pre hpre hne hne')
    rcases walkNames_of_hasRoom hs.walk hroom hl with rfl | ⟨-, hno⟩
    · exact .inr rfl
    · exact (hno ho.walk).elim

/-- Does the path start in a directory, and is there nothing but directories above its place, as
far as there is anything? -/
def HasRoom (h : Host) (d : Path) : Prop :=
  h.tree.get? (h.start d) = some .directory ∧ ∀ q, q <+: h.spot d → q ≠ h.spot d →
    h.tree.get? q = none ∨ h.tree.get? q = some .directory

instance (h : Host) (d : Path) : Decidable (h.HasRoom d) :=
  inferInstanceAs (Decidable (_ ∧ ∀ q, q <+: h.spot d → q ≠ h.spot d →
    h.tree.get? q = none ∨ h.tree.get? q = some .directory))

theorem HasRoom.walk (hr : h.HasRoom d) :
    h.tree.HasRoom (h.start d) (d.parts.map entryName) := fun _ hpre _ hne =>
  hr.2 _ ((List.prefix_append_right_inj _).2 hpre) fun he => hne (List.append_cancel_left he)

/-- Where there is room, a straight path can be followed unless it is too long or a directory above
is missing. -/
theorem locate_of_hasRoom (hs : h.IsStraight d) (hr : h.HasRoom d) {c : Cause}
    (hl : h.locate last d = .error c) : c = .nameTooLong ∨ c = .missing ∧ ¬h.IsOpen d := by
  obtain ⟨f, hf⟩ := exists_walkNames h.tree last maxLinks (h.start d) (d.parts.map entryName)
  unfold locate at hl
  split at hl
  · cases hl
    exact .inl rfl
  split at hl
  · next hstart =>
    rw [hs.foothold, hr.1] at hstart
    cases hstart
  · rw [hf] at hl
    exact (walkNames_of_hasRoom hs.walk hr.walk hl).imp_right fun ⟨hc, ho⟩ =>
      ⟨hc, fun h => ho h.walk⟩

end Host

end FatInstall
