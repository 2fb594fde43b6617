import FatInstall.Proofs.Acceptance

/-!
# The algebra of changes

Settings are changed name by name. A change to null is none; a name that is there keeps its place,
and a new one goes to the end. Changing twice is changing once, by the second changes put into the
first, and what a setting is read as depends on the last change of its name alone.

* `Value.keys_setEntries`: the keys after entries were set.
* `Value.setEntries_setEntry`: an entry put into changes is set after them.
* `Settings.withOverrides_algebra`: the laws of changes.
-/

namespace FatInstall

namespace Value

/-! ## Entries set one after the other -/

theorem sameKey_text (t u : Text) : sameKey (.text t) (.text u) = (t == u) := by
  rw [Bool.eq_iff_iff, sameKey_eq_true, beq_iff_eq]
  simp [key?, eq_comm]

variable {k k' v v' : Value} {entries changes : List (Value × Value)}

/-- Keys that are one with a third are one. -/
theorem sameKey_of_both {a : Value} (h : sameKey a k = true) (h' : sameKey a k' = true) :
    sameKey k k' = true := by
  rw [← sameKey_congr h]
  exact h'

theorem setEntry_cons_of_same {a w : Value} (h : sameKey a k = true) :
    setEntry k v ((a, w) :: entries) = (a, v) :: entries := if_pos h

theorem setEntry_cons_of_not {a w : Value} (h : ¬sameKey a k = true) :
    setEntry k v ((a, w) :: entries) = (a, w) :: setEntry k v entries := if_neg h

/-- The keys after an entry was set: those before, and the key if it was not among them. -/
theorem keys_setEntry : (setEntry k v entries).map Prod.fst =
    entries.map Prod.fst ++ if lookup? k entries = none then [k] else [] := by
  induction entries with
  | nil => rfl
  | cons e entries ih =>
    obtain ⟨a, w⟩ := e
    by_cases h : sameKey a k = true
    · simp [setEntry_cons_of_same h, lookup?, h]
    · simp [setEntry_cons_of_not h, lookup?, h, ih]

/-- Different keys: none of them is one with a later one. -/
def AreDifferent (changes : List (Value × Value)) : Prop :=
  changes.Pairwise fun c d => sameKey c.1 d.1 = false

/-- The keys after different ones were set: those before, and those of the changes that were not
among them. -/
theorem keys_setEntries (hc : AreDifferent changes) : (setEntries entries changes).map Prod.fst =
    entries.map Prod.fst ++ (changes.map Prod.fst).filter fun k => lookup? k entries = none := by
  induction changes generalizing entries with
  | nil => simp [setEntries]
  | cons c changes ih =>
    obtain ⟨hfirst, hrest⟩ := List.pairwise_cons.1 hc
    -- the key that is set first makes none of the later ones known
    have hknown : ∀ d ∈ changes,
        lookup? d.1 (setEntry c.1 c.2 entries) = lookup? d.1 entries := by
      intro d hd
      rw [lookup?_setEntry, hfirst d hd]
      rfl
    have hfilter : ((changes.map Prod.fst).filter fun k =>
        lookup? k (setEntry c.1 c.2 entries) = none) =
        (changes.map Prod.fst).filter fun k => lookup? k entries = none := by
      refine List.filter_congr fun k hk => ?_
      obtain ⟨d, hd, rfl⟩ := List.mem_map.1 hk
      rw [hknown d hd]
    rw [setEntries, List.foldl_cons, ← setEntries, ih hrest, keys_setEntry, hfilter,
      List.append_assoc, List.map_cons, List.filter_cons]
    cases lookup? c.1 entries <;> rfl

/-- An entry that is set twice is set once. -/
theorem setEntry_setEntry (h : sameKey k' k = true) :
    setEntry k v (setEntry k' v' entries) = setEntry k' v entries := by
  induction entries with
  | nil => exact setEntry_cons_of_same h
  | cons e entries ih =>
    obtain ⟨a, w⟩ := e
    by_cases ha : sameKey a k' = true
    · have ha' : sameKey a k = true := (sameKey_congr ha k).trans h
      rw [setEntry_cons_of_same ha, setEntry_cons_of_same ha, setEntry_cons_of_same ha']
    · have ha' : ¬sameKey a k = true := fun ha' => ha (sameKey_of_common ha' h)
      rw [setEntry_cons_of_not ha, setEntry_cons_of_not ha, setEntry_cons_of_not ha', ih]

/-- A key that is there already can be set before or after another one. -/
theorem setEntry_comm (hk : lookup? k entries ≠ none) (hne : ¬sameKey k k' = true) :
    setEntry k v (setEntry k' v' entries) = setEntry k' v' (setEntry k v entries) := by
  induction entries with
  | nil => exact (hk rfl).elim
  | cons e entries ih =>
    obtain ⟨a, w⟩ := e
    by_cases h : sameKey a k = true
    · have h' : ¬sameKey a k' = true := fun h' => hne (sameKey_of_both h h')
      rw [setEntry_cons_of_not h', setEntry_cons_of_same h, setEntry_cons_of_same h,
        setEntry_cons_of_not h']
    · rw [lookup?, if_neg h] at hk
      by_cases h' : sameKey a k' = true
      · rw [setEntry_cons_of_same h', setEntry_cons_of_not h, setEntry_cons_of_not h,
          setEntry_cons_of_same h']
      · rw [setEntry_cons_of_not h', setEntry_cons_of_not h, setEntry_cons_of_not h,
          setEntry_cons_of_not h', ih hk]

/-- A key that is there already can be set before or after others. -/
theorem setEntry_setEntries (hk : lookup? k entries ≠ none)
    (hc : ∀ c ∈ changes, ¬sameKey k c.1 = true) :
    setEntry k v (setEntries entries changes) = setEntries (setEntry k v entries) changes := by
  induction changes generalizing entries with
  | nil => rfl
  | cons c changes ih =>
    obtain ⟨hfirst, hrest⟩ := List.forall_mem_cons.1 hc
    have hstays : lookup? k (setEntry c.1 c.2 entries) ≠ none := by
      rw [lookup?_setEntry]
      split
      · exact nofun
      · exact hk
    calc setEntry k v (setEntries (setEntry c.1 c.2 entries) changes)
        = setEntries (setEntry k v (setEntry c.1 c.2 entries)) changes := ih hstays hrest
      _ = setEntries (setEntry c.1 c.2 (setEntry k v entries)) changes := by
        rw [setEntry_comm hk hfirst]

/-- To set changes of which one was set anew is to set the changes, and then that one. -/
theorem setEntries_setEntry (hc : AreDifferent changes) :
    setEntries entries (setEntry k v changes) = setEntry k v (setEntries entries changes) := by
  induction changes generalizing entries with
  | nil => rfl
  | cons c changes ih =>
    obtain ⟨a, w⟩ := c
    obtain ⟨hfirst, hrest⟩ := List.pairwise_cons.1 hc
    by_cases h : sameKey a k = true
    · have hknown : lookup? k (setEntry a w entries) ≠ none := by
        rw [lookup?_setEntry, if_pos h]
        exact nofun
      have hothers : ∀ d ∈ changes, ¬sameKey k d.1 = true := by
        intro d hd hs
        rw [← sameKey_congr h, hfirst d hd] at hs
        cases hs
      calc setEntries entries (setEntry k v ((a, w) :: changes))
          = setEntries (setEntry a v entries) changes := by rw [setEntry_cons_of_same h]; rfl
        _ = setEntries (setEntry k v (setEntry a w entries)) changes := by
          rw [setEntry_setEntry h]
        _ = setEntry k v (setEntries (setEntry a w entries) changes) :=
          (setEntry_setEntries hknown hothers).symm
    · rw [setEntry_cons_of_not h]
      exact ih hrest

end Value

/-! ## Changes by name -/

namespace Settings

open Value

/-- The changes that are not null. -/
def nonNull (changes : List (Text × Value)) : List (Text × Value) :=
  changes.filter fun c => !c.2.isNull

/-- Changes with others put into them: a name that is there keeps its place. -/
def updated (changes more : List (Text × Value)) : List (Text × Value) :=
  more.foldl (fun cs c => setEntryBy (· == ·) c.1 c.2 cs) changes

/-- The settings with a single entry. -/
def only (name : Text) (v : Value) : Settings := ⟨[(.text name, v)]⟩

/-- The settings that a name is read from after changes: those with the change of the name alone,
if there is one that is not null, and the settings before the changes otherwise. -/
def origin (s : Settings) (changes : List (Text × Value)) (name : Text) : Settings :=
  match changes.lookup name with
  | some v => if v.isNull then s else only name v
  | none => s

/-- A change as an entry. -/
def entryOf (c : Text × Value) : Value × Value := (.text c.1, c.2)

variable {s : Settings} {a b changes : List (Text × Value)}

theorem withOverrides_eq (s : Settings) (changes : List (Text × Value)) :
    s.withOverrides changes = ⟨setEntries s.entries ((given changes).map entryOf)⟩ := rfl

theorem map_setEntryBy (name : Text) (v : Value) (changes : List (Text × Value)) :
    (setEntryBy (· == ·) name v changes).map entryOf =
      setEntry (.text name) v (changes.map entryOf) := by
  induction changes with
  | nil => rfl
  | cons c changes ih =>
    obtain ⟨name', v'⟩ := c
    rw [setEntryBy, List.map_cons, entryOf, setEntry, setEntryBy, sameKey_text]
    split
    · rfl
    · rw [List.map_cons, ih]
      rfl

/-- Different names are different keys. -/
theorem areDifferent_map (h : (changes.map Prod.fst).Nodup) :
    AreDifferent (changes.map entryOf) := by
  rw [AreDifferent, List.pairwise_map]
  refine (List.pairwise_map.1 h).imp fun {c d} hcd => ?_
  rw [entryOf, entryOf, sameKey_text]
  exact beq_false_of_ne hcd

/-- A name that is set is among the names, and no other comes in. -/
theorem mem_setEntryBy {name name' : Text} {v : Value} :
    name' ∈ (setEntryBy (· == ·) name v changes).map Prod.fst ↔
      name' = name ∨ name' ∈ changes.map Prod.fst := by
  induction changes with
  | nil => simp [setEntryBy]
  | cons c changes ih =>
    obtain ⟨first, w⟩ := c
    rw [setEntryBy]
    split
    · next h =>
      rw [← eq_of_beq h]
      simp
    · rw [List.map_cons, List.mem_cons, ih, List.map_cons, List.mem_cons]
      exact or_left_comm

theorem nodup_setEntryBy {name : Text} {v : Value} (h : (changes.map Prod.fst).Nodup) :
    ((setEntryBy (· == ·) name v changes).map Prod.fst).Nodup := by
  induction changes with
  | nil => simp [setEntryBy]
  | cons c changes ih =>
    obtain ⟨first, w⟩ := c
    obtain ⟨hfirst, hrest⟩ := List.nodup_cons.1 h
    rw [setEntryBy]
    split
    · exact h
    · next hne =>
      refine List.nodup_cons.2 ⟨fun hm => ?_, ih hrest⟩
      rcases mem_setEntryBy.1 hm with rfl | hm
      · exact hne (beq_self_eq_true _)
      · exact hfirst hm

theorem nodup_updated (h : (a.map Prod.fst).Nodup) : ((updated a b).map Prod.fst).Nodup := by
  induction b generalizing a with
  | nil => exact h
  | cons c b ih => exact ih (nodup_setEntryBy h)

/-- A new name goes to the end. -/
theorem setEntryBy_of_not_mem {name : Text} {v : Value} (h : name ∉ changes.map Prod.fst) :
    setEntryBy (· == ·) name v changes = changes ++ [(name, v)] := by
  induction changes with
  | nil => rfl
  | cons c changes ih =>
    obtain ⟨hfirst, hrest⟩ := not_or.1 (mt List.mem_cons.2 h)
    rw [setEntryBy, if_neg (by simpa using Ne.symm hfirst), ih hrest, List.cons_append]

/-- Changes of new names are put at the end. -/
theorem updated_of_nodup (h : ((a ++ b).map Prod.fst).Nodup) : updated a b = a ++ b := by
  induction b generalizing a with
  | nil => exact (List.append_nil a).symm
  | cons c b ih =>
    have hnew : c.1 ∉ a.map Prod.fst := fun hm => by
      rw [List.map_append, List.nodup_append] at h
      exact h.2.2 _ hm _ (.head _) rfl
    rw [List.append_cons] at h
    rw [updated, List.foldl_cons, ← updated, setEntryBy_of_not_mem hnew, ih h, ← List.append_cons]

/-- Of changes of different names those count that are not null. -/
theorem given_of_nodup (h : (changes.map Prod.fst).Nodup) : given changes = nonNull changes :=
  congrArg nonNull (updated_of_nodup (a := []) h)

theorem nodup_nonNull (h : (changes.map Prod.fst).Nodup) :
    ((nonNull changes).map Prod.fst).Nodup :=
  h.sublist (List.filter_sublist.map Prod.fst)

theorem nonNull_updated (ha : ∀ c ∈ a, c.2.isNull = false) (hb : ∀ c ∈ b, c.2.isNull = false) :
    nonNull (updated a b) = updated a b := by
  induction b generalizing a with
  | nil => exact List.filter_eq_self.2 fun c hc => by simp [ha c hc]
  | cons c b ih =>
    obtain ⟨hfirst, hrest⟩ := List.forall_mem_cons.1 hb
    refine ih (fun d hd => ?_) hrest
    rcases mem_of_mem_setEntryBy hd with rfl | hd
    · exact hfirst
    · exact ha d hd

/-- To set changes with others put into them is to set the changes, and then the others. -/
theorem setEntries_updated (entries : List (Value × Value)) (h : (a.map Prod.fst).Nodup) :
    setEntries entries ((updated a b).map entryOf) =
      setEntries (setEntries entries (a.map entryOf)) (b.map entryOf) := by
  induction b generalizing a with
  | nil => rfl
  | cons c b ih =>
    calc setEntries entries ((updated a (c :: b)).map entryOf)
        = setEntries (setEntries entries ((setEntryBy (· == ·) c.1 c.2 a).map entryOf))
            (b.map entryOf) := ih (nodup_setEntryBy h)
      _ = setEntries (setEntry (.text c.1) c.2 (setEntries entries (a.map entryOf)))
            (b.map entryOf) := by
        rw [map_setEntryBy, setEntries_setEntry (areDifferent_map h)]

/-! ## Reading after changes -/

theorem lookup_eq_none {name : Text} (h : name ∉ changes.map Prod.fst) :
    changes.lookup name = none := by
  refine List.lookup_eq_none_iff.2 fun c hc => bne_iff_ne.2 ?_
  rintro rfl
  exact h (List.mem_map.2 ⟨c, hc, rfl⟩)

/-- The value of a name after changes of different names. -/
theorem lookup?_setEntries_map (name : Text) (entries : List (Value × Value))
    (h : (changes.map Prod.fst).Nodup) :
    lookup? (.text name) (setEntries entries (changes.map entryOf)) =
      ((changes.lookup name).or <| lookup? (.text name) entries) := by
  induction changes generalizing entries with
  | nil => rfl
  | cons c changes ih =>
    obtain ⟨hfirst, hrest⟩ := List.nodup_cons.1 h
    obtain ⟨first, w⟩ := c
    rw [List.map_cons, setEntries, List.foldl_cons, ← setEntries, ih _ hrest, lookup?_setEntry,
      entryOf, sameKey_text, List.lookup_cons]
    by_cases hname : name = first
    · subst hname
      simp [lookup_eq_none hfirst]
    · rw [beq_false_of_ne hname, beq_false_of_ne (Ne.symm hname)]
      rfl

theorem lookup_nonNull (name : Text) (h : (changes.map Prod.fst).Nodup) :
    (nonNull changes).lookup name = (changes.lookup name).filter fun v => !v.isNull := by
  induction changes with
  | nil => rfl
  | cons c changes ih =>
    obtain ⟨hfirst, hrest⟩ := List.nodup_cons.1 h
    obtain ⟨first, w⟩ := c
    have ih := ih hrest
    rw [nonNull, List.filter_cons, ← nonNull, List.lookup_cons]
    by_cases hname : name = first
    · subst hname
      rw [lookup_eq_none hfirst] at ih
      cases hw : w.isNull <;> simp [hw, ih, Option.filter]
    · have hne : (name == first) = false := beq_false_of_ne hname
      cases hw : w.isNull <;> simp [List.lookup_cons, hne, ih]

/-- The value of a name is read from its origin. -/
theorem get?_withOverrides (h : (changes.map Prod.fst).Nodup) (name : String) :
    (s.withOverrides changes).get? name = (s.origin changes name).get? name := by
  rw [withOverrides_eq, get?, given_of_nodup h, lookup?_setEntries_map _ _ (nodup_nonNull h),
    lookup_nonNull _ h, origin]
  cases hl : changes.lookup (name : Text) with
  | none => rfl
  | some v =>
    have honly : (only name v).get? name = some v := by
      rw [only, get?, lookup?, sameKey_text, beq_self_eq_true, if_pos rfl]
    cases hv : v.isNull
    · simp [hv, honly]
    · simp [Option.filter, hv, get?]

/-- The laws of changes, for any settings and any two sets of changes of different names. Changing
twice is changing once, by those of the second that are not null put into those of the first. Keys
that are there keep their places, and new ones follow them in the order of the changes. Changes
that are all null are none. Each of the five settings that have a meaning is read, or fails to be,
as in the settings with the change of its name alone, or as before if there is no such change or it
is null. -/
theorem withOverrides_algebra (s : Settings) (ha : (a.map Prod.fst).Nodup)
    (hb : (b.map Prod.fst).Nodup) :
    (s.withOverrides a).withOverrides b = s.withOverrides (updated (nonNull a) (nonNull b)) ∧
    (s.withOverrides a).entries.map Prod.fst = s.entries.map Prod.fst ++
      (((nonNull a).map Prod.fst).filter fun name => lookup? (.text name) s.entries = none).map
        .text ∧
    ((∀ c ∈ a, c.2 = .null) → s.withOverrides a = s) ∧
    (s.withOverrides a).imagePath = (s.origin a "image").imagePath ∧
    (s.withOverrides a).mountDir = (s.origin a "mount_dir").mountDir ∧
    (s.withOverrides a).destDir = (s.origin a "dest_dir").destDir ∧
    (s.withOverrides a).useSudo = (s.origin a "use_sudo").useSudo ∧
    (s.withOverrides a).dryRun = (s.origin a "dry_run").dryRun := by
  have hnull : ∀ {cs : List (Text × Value)}, ∀ c ∈ nonNull cs, c.2.isNull = false := by
    intro cs c hc
    simpa using (List.mem_filter.1 hc).2
  have hget := fun name => get?_withOverrides (s := s) ha name
  refine ⟨?_, ?_, fun hall => ?_, ?_, ?_, ?_, ?_, ?_⟩
  · have hupdated := nodup_updated (b := nonNull b) (nodup_nonNull ha)
    simp only [withOverrides_eq, given_of_nodup ha, given_of_nodup hb, given_of_nodup hupdated,
      nonNull_updated hnull hnull, setEntries_updated _ (nodup_nonNull ha)]
  · rw [withOverrides_eq, given_of_nodup ha, keys_setEntries (areDifferent_map (nodup_nonNull ha))]
    simp only [List.map_map, List.filter_map]
    rfl
  · have hnone : nonNull a = [] := List.filter_eq_nil_iff.2 fun c hc => by simp [hall c hc, isNull]
    rw [withOverrides_eq, given_of_nodup ha, hnone]
    rfl
  · rw [imagePath, getOr, hget]
    rfl
  · rw [mountDir, getOr, hget]
    rfl
  · rw [destDir, getOr, hget]
    rfl
  · rw [useSudo, hget]
    rfl
  · rw [dryRun, hget]
    rfl

/-- Settings that name an image, changed twice: the image keeps its place, what is new follows in
the order in which it was first given, and what is null changes nothing. -/
theorem withOverrides_algebra_twice :
    let s : Settings := ⟨[(.text "image", .text "old.img"), (.text "use_sudo", .int 2)]⟩
    let a : List (Text × Value) := [("mount_dir", .text "m"), ("use_sudo", .null)]
    let b : List (Text × Value) :=
      [("dest_dir", .null), ("image", .text "new.img"), ("mount_dir", .bool false)]
    (a.map Prod.fst).Nodup ∧ (b.map Prod.fst).Nodup ∧
      (s.withOverrides a).withOverrides b =
        ⟨[(.text "image", .text "new.img"), (.text "use_sudo", .int 2),
          (.text "mount_dir", .bool false)]⟩ ∧
      (s.withOverrides a).useSudo = s.useSudo ∧
      (s.withOverrides b).mountDir = (only "mount_dir" (.bool false)).mountDir := by
  intro s a b
  have ha : (a.map Prod.fst).Nodup := by decide
  have hb : (b.map Prod.fst).Nodup := by decide
  obtain ⟨htwice, -, -, -, -, -, huse, -⟩ := withOverrides_algebra s ha hb
  obtain ⟨-, -, -, -, hdir, -⟩ := withOverrides_algebra s hb ha
  exact ⟨ha, hb, htwice.trans rfl, huse.trans rfl, hdir⟩

end Settings

end FatInstall
