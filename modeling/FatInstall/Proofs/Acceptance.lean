import FatInstall.Proofs.Run.Courses
import FatInstall.Settings.Load

/-!
# Which documents are settings

A settings file is a document whose value is a mapping that leaves no doubt whether to use `sudo`.
Every other value is rejected, but for those that count as false: they all give the settings
without any entry. What a loaded file says about `sudo` stays clear through all changes that are
clear themselves.

* `lookup?_setEntry`: what an entry is after another one was set.
* `Settings.loadBy_accepts`: which values of documents are settings, and what they stay.
-/

namespace FatInstall

/-! ## Entries -/

namespace Value

theorem sameKey_eq_true {a b : Value} :
    sameKey a b = true ↔ ∃ x, a.key? = some x ∧ b.key? = some x := by
  unfold sameKey
  split
  · next x y hx hy =>
    simp only [hx, hy, beq_iff_eq, Option.some.injEq]
    exact ⟨fun he => ⟨x, rfl, he.symm⟩, fun ⟨z, hz, hz'⟩ => hz.trans hz'.symm⟩
  · next hno =>
    simp only [Bool.false_eq_true, false_iff, not_exists, not_and]
    exact fun x hx hy => hno x x hx hy

/-- Two values that are one key with a third are one key. -/
theorem sameKey_of_common {a b k : Value} (ha : sameKey a k = true) (hb : sameKey b k = true) :
    sameKey a b = true := by
  obtain ⟨x, hax, hkx⟩ := sameKey_eq_true.1 ha
  obtain ⟨y, hby, hky⟩ := sameKey_eq_true.1 hb
  cases hkx.symm.trans hky
  exact sameKey_eq_true.2 ⟨x, hax, hby⟩

/-- A value is the same key as a third if one that is the same key is. -/
theorem sameKey_congr {a b : Value} (h : sameKey a b = true) (k : Value) :
    sameKey a k = sameKey b k := by
  obtain ⟨x, hax, hbx⟩ := sameKey_eq_true.1 h
  simp only [sameKey, hax, hbx]

/-- The value of a key after an entry was set. -/
theorem lookup?_setEntry (k k' v : Value) (entries : List (Value × Value)) :
    lookup? k (setEntry k' v entries) = if sameKey k' k then some v else lookup? k entries := by
  induction entries with
  | nil => rfl
  | cons e entries ih =>
    obtain ⟨k₀, v₀⟩ := e
    rw [setEntry] at ih ⊢
    rw [setEntryBy]
    by_cases h₀ : sameKey k₀ k'
    · rw [if_pos h₀, lookup?, lookup?, sameKey_congr h₀]
      split <;> rfl
    · rw [if_neg h₀, lookup?, lookup?, ih]
      by_cases hk : sameKey k₀ k
      · rw [if_pos hk, if_pos hk, if_neg fun hk' => h₀ (sameKey_of_common hk hk')]
      · rw [if_neg hk, if_neg hk]

/-- What holds of the value of a key, and of all that it is set to, holds of its value after
changes. -/
theorem forall_lookup?_setEntries {P : Value → Prop} {k : Value} {changes : List (Value × Value)}
    (hc : ∀ c ∈ changes, sameKey c.1 k = true → P c.2) {entries : List (Value × Value)}
    (he : ∀ v, lookup? k entries = some v → P v) :
    ∀ v, lookup? k (setEntries entries changes) = some v → P v := by
  induction changes generalizing entries with
  | nil => exact he
  | cons c changes ih =>
    obtain ⟨hfirst, hrest⟩ := List.forall_mem_cons.1 hc
    refine ih hrest fun v hv => ?_
    rw [lookup?_setEntry] at hv
    split at hv
    · next hk =>
      cases hv
      exact hfirst hk
    · exact he v hv

/-- Is it a truth value, or nothing? -/
def IsTruthOrNull (v : Value) : Prop := v = null ∨ ∃ b, v = bool b

end Value

/-! ## Changes -/

namespace Settings

open Value

theorem mem_of_mem_setEntryBy {α β : Type} [BEq α] [LawfulBEq α] {k : α} {v : β} {c : α × β}
    {entries : List (α × β)} (h : c ∈ setEntryBy (· == ·) k v entries) :
    c = (k, v) ∨ c ∈ entries := by
  induction entries with
  | nil => exact .inl (List.mem_singleton.1 h)
  | cons e entries ih =>
    obtain ⟨k₀, v₀⟩ := e
    rw [setEntryBy] at h
    split at h
    · next hk =>
      cases eq_of_beq hk
      exact (List.mem_cons.1 h).imp_right (.tail _)
    · rcases List.mem_cons.1 h with rfl | h
      · exact .inr (.head _)
      · exact (ih h).imp_right (.tail _)

/-- The changes that count are among those that were asked for. -/
theorem mem_of_mem_given {c : Text × Value} {changes : List (Text × Value)}
    (h : c ∈ given changes) : c ∈ changes := by
  have hall : ∀ (changes done : List (Text × Value)),
      c ∈ changes.foldl (fun cs c => setEntryBy (· == ·) c.1 c.2 cs) done →
        c ∈ done ∨ c ∈ changes := by
    intro changes
    induction changes with
    | nil => exact fun _ => .inl
    | cons e changes ih =>
      intro done hm
      rcases ih _ hm with hm | hm
      · rcases mem_of_mem_setEntryBy hm with rfl | hm
        · exact .inr (.head _)
        · exact .inl hm
      · exact .inr (.tail _ hm)
  exact (hall changes [] (List.mem_filter.1 h).1).resolve_left List.not_mem_nil

/-- Is it clear whether to use `sudo`? -/
def IsClear (s : Settings) : Prop := ∀ v, s.get? "use_sudo" = some v → v.IsTruthOrNull

/-- Are the changes clear about it? -/
def AreClear (changes : List (Text × Value)) : Prop :=
  ∀ c ∈ changes, c.1 = "use_sudo" → c.2.IsTruthOrNull

/-- Clear changes keep clear what is clear. -/
theorem IsClear.withOverrides {s : Settings} {changes : List (Text × Value)} (hs : s.IsClear)
    (hc : AreClear changes) : (s.withOverrides changes).IsClear := by
  refine forall_lookup?_setEntries (fun c hm hk => ?_) hs
  obtain ⟨c, hgiven, rfl⟩ := List.mem_map.1 hm
  obtain ⟨x, hx, hname⟩ := sameKey_eq_true.1 hk
  cases hx
  exact hc c (mem_of_mem_given hgiven) (by simpa [key?, eq_comm] using hname)

theorem IsClear.foldl_withOverrides {s : Settings} (hs : s.IsClear)
    {overrides : List (List (Text × Value))} (hc : ∀ changes ∈ overrides, AreClear changes) :
    (overrides.foldl Settings.withOverrides s).IsClear := by
  induction overrides generalizing s with
  | nil => exact hs
  | cons changes overrides ih =>
    obtain ⟨hfirst, hrest⟩ := List.forall_mem_cons.1 hc
    exact ih (hs.withOverrides hfirst) hrest

theorem privilegeOf_isTruthOrNull {v : Value} (h : v.IsTruthOrNull) :
    ∃ b, privilegeOf (some v) = .ok b := by
  rcases h with rfl | ⟨b, rfl⟩ <;> exact ⟨_, rfl⟩

theorem privilegeOf_of_not {v : Value} (h : ¬v.IsTruthOrNull) :
    privilegeOf (some v) = match v.shown? with
      | some shown => .error (.update (.privilegeUnclear shown))
      | none => .error (.value .noSuchValue) := by
  cases v with
  | null => exact (h (.inl rfl)).elim
  | bool b => exact (h (.inr ⟨b, rfl⟩)).elim
  | _ => rfl

theorem isClear_iff {s : Settings} : s.IsClear ↔ ∃ b, s.useSudo = .ok b := by
  unfold IsClear useSudo
  cases hv : s.get? "use_sudo" with
  | none => simp [privilegeOf]
  | some v =>
    simp only [Option.some.injEq, forall_eq']
    refine ⟨privilegeOf_isTruthOrNull, fun ⟨b, hb⟩ => Classical.byContradiction fun hno => ?_⟩
    rw [privilegeOf_of_not hno] at hb
    split at hb <;> cases hb

/-! ## Loading -/

theorem ofDocument_map (path : String) (entries : List (Value × Value)) :
    ofDocument path (.map entries) =
      (⟨entries⟩ : Settings).useSudo.map fun _ => ⟨entries⟩ := by
  have he : ofDocument path (.map entries) =
      (⟨entries⟩ : Settings).useSudo.bind fun _ => .ok ⟨entries⟩ := rfl
  rw [he]
  cases (⟨entries⟩ : Settings).useSudo <;> rfl

theorem ofDocument_of_ne_map {path : String} {v : Value} (hm : ∀ entries, v ≠ .map entries) :
    ofDocument path v =
      if v.isTrue then .error (.update (.settingsNotMapping path)) else .ok empty := by
  cases v with
  | map entries => exact (hm entries rfl).elim
  | _ =>
    unfold ofDocument
    dsimp only
    split <;> rfl

theorem ofDocument_eq_ok {path : String} {v : Value} {s : Settings} :
    ofDocument path v = .ok s ↔ (∃ entries, v = .map entries ∧ s = ⟨entries⟩ ∧ s.IsClear) ∨
      (∀ entries, v ≠ .map entries) ∧ v.isTrue = false ∧ s = .empty := by
  by_cases hm : ∃ entries, v = .map entries
  · obtain ⟨entries, rfl⟩ := hm
    rw [ofDocument_map, or_iff_left fun h => h.1 entries rfl]
    constructor
    · intro hs
      cases hu : (⟨entries⟩ : Settings).useSudo <;> rw [hu] at hs <;> cases hs
      exact ⟨entries, rfl, rfl, isClear_iff.2 ⟨_, hu⟩⟩
    · rintro ⟨_, he, rfl, hclear⟩
      cases he
      obtain ⟨b, hb⟩ := isClear_iff.1 hclear
      rw [hb]
      rfl
  · have hne : ∀ entries, v ≠ .map entries := fun entries he => hm ⟨entries, he⟩
    rw [ofDocument_of_ne_map hne, or_iff_right fun ⟨entries, he, _⟩ => hm ⟨entries, he⟩]
    cases v.isTrue <;> simp [hne, eq_comm]

variable {read : String → Except Yaml.Fault Value} {path : String} {h : Host}
  {content : List UInt8} {text : String} {v : Value}

theorem doesExist_of_read {p : Path} (hr : h.read p = .ok content) : h.doesExist p = .ok true := by
  unfold Host.read at hr
  unfold Host.doesExist Host.look
  cases hu : Host.unspeakable? p <;> rw [hu] at hr <;>
    rcases hn : h.node true p with _ | _ | _ | _ | _ <;> rw [hn] at hr <;> cases hr <;> rfl

/-- A file with the suffix of settings whose text is read comes to what its value comes to. -/
theorem loadBy_eq (hsuffix : Text.lower (Path.ofString path).suffix ∈ suffixes)
    (hcontent : h.read (Path.ofString path) = .ok content) (htext : textOf content = .ok text)
    (hv : read text = .ok v) : loadBy read path h = ofDocument path v := by
  simp [loadBy, doesExist_of_read hcontent, hsuffix, hcontent, htext, hv, Run.mapError_ok, bind,
    Except.bind]

/-- Which values of documents are settings, for a file with the suffix of settings and any reader:
mappings that are clear about `sudo`, with their entries as they are, and what counts as false,
which gives no entries. What else is no mapping is rejected, and so is a mapping that is not clear,
unless what it says cannot even be shown. Loaded settings say whether to use `sudo`, also after
clear changes. -/
theorem loadBy_accepts (hsuffix : Text.lower (Path.ofString path).suffix ∈ suffixes)
    (hcontent : h.read (Path.ofString path) = .ok content) (htext : textOf content = .ok text)
    (hv : read text = .ok v) :
    (∀ s, loadBy read path h = .ok s ↔
      (∃ entries, v = .map entries ∧ s = ⟨entries⟩ ∧ s.IsClear) ∨
      (∀ entries, v ≠ .map entries) ∧ v.isTrue = false ∧ s = .empty) ∧
    ((∀ entries, v ≠ .map entries) → v.isTrue = true →
      loadBy read path h = .error (.update (.settingsNotMapping path))) ∧
    (∀ entries u, v = .map entries → lookup? (.text "use_sudo") entries = some u →
      ¬u.IsTruthOrNull → loadBy read path h = match u.shown? with
        | some shown => .error (.update (.privilegeUnclear shown))
        | none => .error (.value .noSuchValue)) ∧
    ∀ s, loadBy read path h = .ok s → ∀ overrides : List (List (Text × Value)),
      (∀ changes ∈ overrides, AreClear changes) →
        ∃ b, (overrides.foldl Settings.withOverrides s).useSudo = .ok b := by
  have hload : loadBy read path h = ofDocument path v := loadBy_eq hsuffix hcontent htext hv
  rw [hload]
  refine ⟨fun s => ofDocument_eq_ok, fun hm ht => ?_, ?_, fun s hs overrides hc => ?_⟩
  · rw [ofDocument_of_ne_map hm, if_pos ht]
  · rintro entries u rfl hu hno
    have huse : (⟨entries⟩ : Settings).useSudo = privilegeOf (some u) := congrArg privilegeOf hu
    rw [ofDocument_map, huse, privilegeOf_of_not hno]
    cases u.shown? <;> rfl
  · have hclear : s.IsClear := by
      rcases ofDocument_eq_ok.1 hs with ⟨_, -, -, hclear⟩ | ⟨-, -, rfl⟩
      · exact hclear
      · exact nofun
    exact isClear_iff.1 (hclear.foldl_withOverrides hc)

/-- The name and the truth value in a mapping that has nothing else. -/
def flag? : Value → Option (Text × Bool)
  | .map [(.text name, .bool b)] => some (name, b)
  | _ => none

theorem eq_map_of_flag? {name : Text} {b : Bool} (hv : flag? v = some (name, b)) :
    v = .map [(.text name, .bool b)] := by
  unfold flag? at hv
  split at hv <;> cases hv
  rfl

/-- A host with a settings file of the given text. -/
def hostWith (text : String) : Host :=
  ⟨⟨[(["c.yaml"], .file 0 text.toUTF8.toList)], 1⟩, []⟩

/-- A file that says not to use `sudo`, and a change that says nothing about it. -/
theorem loadBy_accepts_plain :
    let text := "use_sudo: no"
    let h := hostWith text
    let entries := [(Value.text "use_sudo", Value.bool false)]
    let changes : List (Text × Value) := [("use_sudo", .null)]
    Text.lower (Path.ofString "c.yaml").suffix ∈ suffixes ∧
      h.read (Path.ofString "c.yaml") = .ok text.toUTF8.toList ∧
      textOf text.toUTF8.toList = .ok text ∧ Yaml.read text = .ok (.map entries) ∧
      load "c.yaml" h = .ok ⟨entries⟩ ∧ AreClear changes ∧
        ∃ b, (Settings.withOverrides ⟨entries⟩ changes).useSudo = .ok b := by
  intro text h entries changes
  have hsuffix : Text.lower (Path.ofString "c.yaml").suffix ∈ suffixes := by decide +kernel
  have hcontent : h.read (Path.ofString "c.yaml") = .ok text.toUTF8.toList :=
    eq_ok_of_toOption (by decide +kernel)
  have htext : textOf text.toUTF8.toList = .ok text := eq_ok_of_toOption (by decide +kernel)
  have hflag : (Yaml.read text).toOption.bind flag? = some (("use_sudo" : Text), false) := by
    decide +kernel
  have hread : Yaml.read text = .ok (.map entries) := by
    obtain ⟨v, hv, hf⟩ := Option.bind_eq_some_iff.1 hflag
    exact eq_map_of_flag? hf ▸ eq_ok_of_toOption hv
  have hclear : IsClear ⟨entries⟩ := by
    intro v hv
    cases hv
    exact .inr ⟨false, rfl⟩
  have hchanges : AreClear changes := by
    intro c hc _
    cases List.mem_singleton.1 hc
    exact .inl rfl
  obtain ⟨haccepts, -, -, hkeeps⟩ := loadBy_accepts hsuffix hcontent htext hread
  have hload : load "c.yaml" h = .ok ⟨entries⟩ := by
    exact (haccepts ⟨entries⟩).2 (.inl ⟨entries, rfl, rfl, hclear⟩)
  refine ⟨hsuffix, hcontent, htext, hread, hload, hchanges, ?_⟩
  exact hkeeps ⟨entries⟩ hload [changes] (List.forall_mem_singleton.2 hchanges)

/-- Whether a value is the list without items. -/
def isEmptyList : Value → Bool
  | .list [] => true
  | _ => false

theorem eq_list_of_isEmptyList (hv : isEmptyList v = true) : v = .list [] := by
  unfold isEmptyList at hv
  split at hv <;> cases hv
  rfl

/-- An empty list is accepted, although it is neither a mapping nor nothing. -/
theorem load_acceptsEmptyList :
    Yaml.read "[]" = .ok (.list []) ∧ load "c.yaml" (hostWith "[]") = .ok .empty := by
  have hread : (Yaml.read "[]").toOption.map isEmptyList = some true := by decide +kernel
  have hload : (load "c.yaml" (hostWith "[]")).toOption.map (·.entries.isEmpty) = some true := by
    decide +kernel
  obtain ⟨v, hv, hlist⟩ := Option.map_eq_some_iff.1 hread
  obtain ⟨⟨entries⟩, hs, hempty⟩ := Option.map_eq_some_iff.1 hload
  cases List.isEmpty_iff.1 hempty
  rw [eq_ok_of_toOption hv, eq_list_of_isEmptyList hlist, eq_ok_of_toOption hs]
  exact ⟨rfl, rfl⟩

end Settings

end FatInstall
