import FatInstall.Proofs.Host.Files
import FatInstall.Proofs.Host.Trail

/-!
# What can be removed

What a path leads to can be removed if it is a file, whatever the path is. A directory can be
removed only by a path that ends with its own name: a link at the end is refused, and a path that
ends with `..`, or has no names at all, does not say which entry is to go. Since the directory is
emptied before it goes, its path must not lead through what is below it either.

* `IsOwnName`: the path ends with the directory's own name, and leads there without what is below.
* `removeTree_eq_ok_iff`, `unlink_of_node`: when the two removals succeed.
* `IsClearable`: the two together.
-/

namespace FatInstall.Host

/-! ## Following the last name, or not -/

/-- Does the walk end at a link? -/
def EndsAtLink (t : Tree) (x : Except Cause Place) : Prop :=
  ∃ place target, x = .ok place ∧ t.get? place = some (.link target)

section

variable {t t' : Tree} {f f' : Follow (Except Cause Place)} {here place dir : Place}
  {names : List Text} {name : Text} {links : Nat}

theorem walkNames_unfollowed
    (hf : ∀ target here rest, rest ≠ [] → f target here rest = .ok place →
      EndsAtLink t (f' target here rest) ∨ f' target here rest = .ok place)
    (hw : walkNames t true f here names = .ok place) :
    EndsAtLink t (walkNames t false f' here names) ∨
      walkNames t false f' here names = .ok place := by
  induction names generalizing here with
  | nil => exact .inr hw
  | cons name rest ih =>
    by_cases hn : name = Path.parentName
    · simp only [walkNames, hn, if_true] at hw ⊢
      exact ih hw
    by_cases hs : maxName < name.byteSize
    · simp only [walkNames, hn, hs, if_true, if_false] at hw
      cases hw
    simp only [walkNames, hn, hs, if_false] at hw ⊢
    cases hg : t.get? (here ++ [name]) with
    | none =>
      rw [hg] at hw
      exact .inr hw
    | some n =>
      rw [hg] at hw
      cases n with
      | directory => exact ih hw
      | link target =>
        simp only [Bool.true_eq_false, and_false, if_false] at hw
        by_cases hr : rest = []
        · exact .inl ⟨_, target, by simp [hr], hg⟩
        · simp only [hr, false_and, if_false]
          exact hf target here rest hr hw
      | _ => exact .inr hw

/-- A walk that does not follow a link at its end comes to the same place, or to such a link. -/
theorem walk_unfollowed (hw : walk t true links here names = .ok place) :
    EndsAtLink t (walk t false links here names) ∨ walk t false links here names = .ok place := by
  induction links generalizing here names with
  | zero => exact walkNames_unfollowed (fun _ _ _ _ hc => by cases hc) hw
  | succ links ih =>
    refine walkNames_unfollowed (fun target here rest hr hf => ?_) hw
    simp only [hr, false_and, if_false]
    have hw := ih (followed_eq_ok.1 hf).1
    simpa [bind_pure] using hw

/-! ## Trees that have more -/

theorem walkNames_of_extends (ht : ∀ q, t.get? q ≠ none → t'.get? q = t.get? q)
    (hf : ∀ target here rest, f target here rest = .ok place → f' target here rest = .ok place)
    (hw : walkNames t true f here names = .ok place) (hp : t.get? place ≠ none) :
    walkNames t' true f' here names = .ok place := by
  induction names generalizing here with
  | nil => exact hw
  | cons name rest ih =>
    by_cases hn : name = Path.parentName
    · simp only [walkNames, hn, if_true] at hw ⊢
      exact ih hw
    by_cases hs : maxName < name.byteSize
    · simp only [walkNames, hn, hs, if_true, if_false] at hw
      cases hw
    simp only [walkNames, hn, hs, if_false] at hw ⊢
    cases hg : t.get? (here ++ [name]) with
    | none =>
      rw [hg] at hw
      by_cases hr : rest = []
      · simp only [hr, if_true] at hw
        cases hw
        exact (hp hg).elim
      · simp only [hr, if_false] at hw
        cases hw
    | some n =>
      rw [ht _ (by simp [hg]), hg]
      rw [hg] at hw
      cases n with
      | directory => exact ih hw
      | link target =>
        simp only [Bool.true_eq_false, and_false, if_false] at hw ⊢
        exact hf target here rest hw
      | _ => exact hw

/-- What is found in a tree is found in one that has more. -/
theorem walk_of_extends (ht : ∀ q, t.get? q ≠ none → t'.get? q = t.get? q)
    (hw : walk t true links here names = .ok place) (hp : t.get? place ≠ none) :
    walk t' true links here names = .ok place := by
  induction links generalizing here names with
  | zero => exact walkNames_of_extends ht (fun _ _ _ hc => by cases hc) hw hp
  | succ links ih =>
    refine walkNames_of_extends ht (fun target here rest hf => ?_) hw hp
    obtain ⟨hw, hd⟩ := followed_eq_ok.1 hf
    exact followed_eq_ok.2 ⟨ih hw, fun hc => (ht _ hp).trans (hd hc)⟩

/-! ## The last step -/

theorem walkNames_snoc
    (hf : ∀ target here rest, f target here rest = .ok dir →
      f' target here (rest ++ [name]) = .ok place → place = dir ++ [name])
    (hw : walkNames t true f here names = .ok dir) (hd : t.get? dir = some .directory)
    (hn : name ≠ Path.parentName)
    (hw' : walkNames t false f' here (names ++ [name]) = .ok place) : place = dir ++ [name] := by
  induction names generalizing here with
  | nil =>
    cases hw
    by_cases hs : maxName < name.byteSize
    · simp only [List.nil_append, walkNames, hn, hs, if_true, if_false] at hw'
      cases hw'
    simp only [List.nil_append, walkNames, hn, hs, if_false] at hw'
    rcases ht : t.get? (dir ++ [name]) with _ | _ | _ | _ | _ <;> rw [ht] at hw' <;>
      simpa [eq_comm] using hw'
  | cons first rest ih =>
    by_cases hfirst : first = Path.parentName
    · simp only [List.cons_append, walkNames, hfirst, if_true] at hw hw'
      exact ih hw hw'
    by_cases hs : maxName < first.byteSize
    · simp only [walkNames, hfirst, hs, if_true, if_false] at hw
      cases hw
    simp only [List.cons_append, walkNames, hfirst, hs, if_false] at hw hw'
    have hend : ∀ n, t.get? (here ++ [first]) = some n → n ≠ .directory →
        (if rest = [] then Except.ok (here ++ [first]) else .error Cause.notDirectory) ≠
          .ok dir := by
      intro n hg hne hc
      split at hc
      · cases hc
        rw [hg] at hd
        exact hne (Option.some.inj hd)
      · cases hc
    cases hg : t.get? (here ++ [first]) with
    | none =>
      rw [hg] at hw
      by_cases hr : rest = []
      · simp only [hr, if_true] at hw
        cases hw
        rw [hg] at hd
        cases hd
      · simp only [hr, if_false] at hw
        cases hw
    | some n =>
      rw [hg] at hw hw'
      cases n with
      | directory => exact ih hw hw'
      | link target =>
        simp only [Bool.true_eq_false, and_false, if_false, List.append_eq_nil_iff,
          List.cons_ne_self, false_and] at hw hw'
        exact hf target here rest hw hw'
      | file number content => exact (hend _ hg (by simp) hw).elim
      | device => exact (hend _ hg (by simp) hw).elim

/-- A walk that goes one name further than to a directory ends at the entry of that name. -/
theorem walk_snoc (hw : walk t true links here names = .ok dir)
    (hd : t.get? dir = some .directory) (hn : name ≠ Path.parentName)
    (hw' : walk t false links here (names ++ [name]) = .ok place) : place = dir ++ [name] := by
  induction links generalizing here names with
  | zero => exact walkNames_snoc (fun _ _ _ hc => by cases hc) hw hd hn hw'
  | succ links ih =>
    refine walkNames_snoc (fun target here rest hf hf' => ?_) hw hd hn hw'
    simp only [List.append_eq_nil_iff, List.cons_ne_self, and_false, false_and, if_false] at hf'
    refine ih (followed_eq_ok.1 hf).1 ?_
    rw [List.append_assoc]
    simpa [bind_pure] using hf'

end

/-! ## Directories -/

variable {h h' : Host} {p d above : Path} {place dir : Place} {name : Text} {n : Node}

theorem directory_eq_ok : h.directory p = .ok place ↔
    h.locate true p = .ok place ∧ h.tree.get? place = some .directory := by
  unfold directory
  rcases h.locate true p with c | place'
  · simp [bind, Except.bind]
  · simp only [bind, Except.bind, directoryAt, Except.ok.injEq]
    constructor
    · intro hd
      split at hd
      · next hg =>
        cases hd
        exact ⟨rfl, hg⟩
      all_goals cases hd
    · rintro ⟨rfl, hg⟩
      rw [hg]

/-- A directory that is found is found on a host that has more. -/
theorem directory_of_extends (he : Extends h h') (hd : h.directory p = .ok place) :
    h'.directory p = .ok place := by
  obtain ⟨hl, hg⟩ := directory_eq_ok.1 hd
  obtain ⟨hm, hs, hw⟩ := walk_of_locate hl
  have hp : h.tree.get? place ≠ none := by simp [hg]
  refine directory_eq_ok.2 ⟨?_, (he.get? place hp).trans hg⟩
  have hs' : h'.tree.get? (h'.foothold p) ≠ none := by
    rwa [foothold_congr he.here, he.get? _ hs]
  rw [locate, if_neg hm, if_neg hs', start_congr he.here]
  exact walk_of_extends he.get? hw hp

theorem splitLast_eq_some (hs : splitLast p = some (above, name)) :
    above = p.parent ∧ p.parts.map entryName = p.parent.parts.map entryName ++ [name] := by
  unfold splitLast at hs
  cases hlast : p.parts.getLast? with
  | none =>
    rw [hlast] at hs
    cases hs
  | some piece =>
    rw [hlast] at hs
    cases hs
    obtain ⟨front, hparts⟩ := List.getLast?_eq_some_iff.1 hlast
    simp [Path.parent, hparts]

/-- A path that ends with a name ends at the entry of that name in the directory above. -/
theorem place_of_splitLast (hs : splitLast d = some (above, name)) (hn : name ≠ Path.parentName)
    (ha : h.directory above = .ok dir) (hl : h.locate false d = .ok place) :
    place = dir ++ [name] := by
  obtain ⟨rfl, hparts⟩ := splitLast_eq_some hs
  obtain ⟨hlabove, hg⟩ := directory_eq_ok.1 ha
  obtain ⟨-, -, hwabove⟩ := walk_of_locate hlabove
  obtain ⟨-, -, hw⟩ := walk_of_locate hl
  rw [hparts] at hw
  exact walk_snoc hwabove hg hn hw

/-! ## Removing -/

theorem Tree.get?_erase (t : Tree) (hp : place ≠ []) (q : Place) :
    (t.erase place).get? q = if q = place then none else t.get? q := by
  simp only [Tree.get?, Tree.erase, lookup_filter_places (· != place), bne_iff_ne, ne_eq, ite_not]
  by_cases hq : q = place
  · simp [hq, hp]
  · simp [hq]

theorem Tree.get?_eraseBelow (t : Tree) (place q : Place) :
    (t.eraseBelow place).get? q = if place <+: q ∧ place ≠ q then none else t.get? q := by
  have hbelow : Tree.isBelow place q = true ↔ place <+: q ∧ place ≠ q := by
    simp [Tree.isBelow]
  simp only [Tree.get?, Tree.eraseBelow, lookup_filter_places (!Tree.isBelow place ·)]
  by_cases hq : place <+: q ∧ place ≠ q
  · have hroot : q ≠ [] := by
      rintro rfl
      exact hq.2 (List.prefix_nil.1 hq.1)
    simp [hbelow.2 hq, hq, hroot]
  · have hno : Tree.isBelow place q = false := Bool.eq_false_iff.2 fun h => hq (hbelow.1 h)
    simp only [hno, hq, if_false]
    simp

/-- The host without what is below a place. -/
def emptied (h : Host) (place : Place) : Host := { h with tree := h.tree.eraseBelow place }

theorem extends_of_emptied (h : Host) (place : Place) : Extends (h.emptied place) h :=
  ⟨rfl, fun q hq => (((shrinks_eraseBelow h place).get? q).resolve_left hq).symm⟩

theorem get?_emptied (h : Host) {q : Place} (hq : ¬place <+: q) :
    (h.emptied place).tree.get? q = h.tree.get? q :=
  (Tree.get?_eraseBelow ..).trans (if_neg fun hb => hq hb.1)

theorem get?_emptied_self (h : Host) (place : Place) :
    (h.emptied place).tree.get? place = h.tree.get? place := by
  have hself : Tree.isBelow place place = false := by simp [Tree.isBelow]
  simp only [emptied, Tree.get?, Tree.eraseBelow, lookup_filter_places (!Tree.isBelow place ·),
    hself]
  simp

theorem childNames_emptied (h : Host) (place : Place) :
    (h.emptied place).tree.childNames place = [] := by
  refine List.filterMap_eq_nil_iff.2 fun e he => ?_
  have hbelow : Tree.isBelow place e.1 = false := by
    simpa using (List.mem_filter.1 he).2
  split
  · next hchild =>
    obtain ⟨hparent, hne⟩ := hchild
    have hplace : e.1 = place ++ [e.1.getLast hne] := by
      rw [← hparent, List.dropLast_concat_getLast]
    rw [hplace] at hbelow
    simp [Tree.isBelow] at hbelow
  · rfl

/-- Does the path lead to a directory by the directory's own name? It must neither end with `..`
nor with a link, nor lead through what is below the directory. -/
def IsOwnName (h : Host) (d : Path) : Prop :=
  ∃ place above name, h.directory d = .ok place ∧ h.locate false d = .ok place ∧
    splitLast d = some (above, name) ∧ name ≠ Path.parentName ∧
      ∃ dir, (h.emptied place).directory above = .ok dir

theorem locate_unfollowed (hl : h.locate true p = .ok place) :
    EndsAtLink h.tree (h.locate false p) ∨ h.locate false p = .ok place := by
  obtain ⟨hm, hs, hw⟩ := walk_of_locate hl
  rw [locate, if_neg hm, if_neg hs]
  exact walk_unfollowed hw

theorem removeEmpty_isOk_iff : (∃ h', h.removeEmpty p = .ok h') ↔
    ∃ above name dir, splitLast p = some (above, name) ∧ name ≠ Path.parentName ∧
      h.directory above = .ok dir ∧ h.tree.get? (dir ++ [name]) = some .directory ∧
        h.tree.childNames (dir ++ [name]) = [] := by
  unfold removeEmpty
  cases hs : splitLast p with
  | none => simp
  | some e =>
    obtain ⟨above, name⟩ := e
    simp only [bind, Except.bind, Option.some.injEq, Prod.mk.injEq, and_assoc,
      exists_and_left, exists_eq_left']
    cases hd : h.directory above with
    | error c => simp
    | ok dir =>
      by_cases hn : name = Path.parentName
      · simp [hn]
      by_cases hc : h.tree.childNames (dir ++ [name]) = [] <;>
        rcases hg : h.tree.get? (dir ++ [name]) with _ | _ | _ | _ | _ <;> simp [hn, hc, hg]

/-- A directory tree is removed exactly if the path ends with its own name. -/
theorem removeTree_eq_ok_iff : (h.removeTree d).1 = .ok () ↔ h.IsOwnName d := by
  unfold IsOwnName
  cases hdir : h.directory d with
  | error c =>
    have hno : (h.removeTree d).1 ≠ .ok () := by
      rw [removeTree_eq, hdir]
      cases h.node false d <;> simp
    simp [hno]
  | ok place =>
    obtain ⟨hl, hg⟩ := directory_eq_ok.1 hdir
    rcases locate_unfollowed hl with ⟨link, target, hlink, hglink⟩ | hown
    · -- the path ends with a link to the directory
      have hnode : h.node false d = .ok (.link target) := by
        simp [node, hlink, bind, Except.bind, hglink]
      have hne : link ≠ place := by
        rintro rfl
        rw [hglink] at hg
        cases hg
      simp [removeTree_eq, hdir, hnode, hlink, hne]
    have hnode : h.node false d = .ok .directory := by
      simp [node, hown, bind, Except.bind, hg]
    have hempty : (h.removeTree d).1 = .ok () ↔ ∃ h', (h.emptied place).removeEmpty d = .ok h' := by
      rcases he : (h.emptied place).removeEmpty d with c | h'' <;> rw [emptied] at he <;>
        simp [removeTree_eq, hdir, hnode, he]
    rw [hempty, removeEmpty_isOk_iff]
    constructor
    · rintro ⟨above, name, dir, hs, hn, ha, -⟩
      exact ⟨place, above, name, rfl, hown, hs, hn, dir, ha⟩
    · rintro ⟨place', above, name, heq, -, hs, hn, dir, ha⟩
      cases heq
      have ha' := directory_of_extends (extends_of_emptied h _) ha
      have hplace := place_of_splitLast hs hn ha' hown
      refine ⟨above, name, dir, hs, hn, ha, ?_, ?_⟩
      · rw [← hplace, get?_emptied_self, hg]
      · rw [← hplace]
        exact childNames_emptied h place

/-- What is no directory can be removed. -/
theorem unlink_of_node (hn : h.node true d = .ok n) (hd : n ≠ .directory) :
    (h.unlink d).1 = .ok () := by
  obtain ⟨place, hl, hg⟩ := locate_of_node hn
  rw [unlink_eq]
  rcases locate_unfollowed hl with ⟨link, target, hlink, hglink⟩ | hown
  · simp [hlink, hglink]
  · cases n with
    | directory => exact (hd rfl).elim
    | _ => simp [hown, hg]

/-- Can what the path leads to be removed, if it leads to anything? A path that is too long cannot
even be followed. -/
def IsClearable (h : Host) (d : Path) : Prop :=
  match h.node true d with
  | .error c => c ≠ .nameTooLong
  | .ok .directory => h.IsOwnName d
  | .ok _ => True

end FatInstall.Host
