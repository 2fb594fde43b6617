import FatInstall.CommandLine.Words
import Mathlib.Data.List.Induction
import Mathlib.Data.List.TakeWhile

/-!
# Arrangements of a command line

A command line of option words and one group of files means the same wherever the group stands, and
whatever the order of words of different options: each value is the last one given, each switch is
on if it is named, and wishes for detail add up. Values stand in the words of their options, and
long options may be shortened as long as only one fits.

* `Spelling`, `OptionWord`: the ways to write an option in one word.
* `readWord_word`: each word is read as what it was written for.
* `readItems_map_item`: option words change what was said so far one after the other.
* `parse_arranged`: what an arrangement means, and that it is the same for all.
-/

namespace FatInstall.CommandLine

/-! ## Option words -/

/-- Is it an option without value that does not end the program? -/
def Opt.isSwitch : Opt → Bool
  | noSudo | dryRun | verbose => true
  | _ => false

/-- A start of the long spelling of an option, and of no other one. -/
structure Spelling (o : Opt) where
  chars : List Char
  starts : chars <+: o.long.toList
  alone : ∀ o' : Opt, chars <+: o'.long.toList → o' = o

/-- A word for an option, with its value if it takes one. -/
inductive OptionWord
  /-- An option, an equals sign and a value, which is not the mark that ends the options. -/
  | value (o : Opt) (takes : o.takesValue = true) (s : Spelling o) (v : String)
    (unmarked : v ≠ "--")
  | switch (o : Opt) (isSwitch : o.isSwitch = true) (s : Spelling o)
  /-- The letter for detail, once and so many times more. -/
  | details (more : Nat)

namespace OptionWord

/-- The word as it is written. -/
def word : OptionWord → String
  | value _ _ s v _ => String.ofList (s.chars ++ '=' :: v.toList)
  | switch _ _ s => String.ofList s.chars
  | details n => String.ofList ('-' :: List.replicate (n + 1) 'v')

/-- The option that the word is for. -/
def option : OptionWord → Opt
  | value o _ _ _ _ => o
  | switch o _ _ => o
  | details _ => .verbose

/-- The value in the word, if it is one for the option. -/
def valueFor? (o : Opt) : OptionWord → Option String
  | value o' _ _ v _ => if o' = o then some v else none
  | _ => none

/-- How much more detail the word asks for. -/
def detail : OptionWord → Nat
  | switch .verbose _ _ => 1
  | details n => n + 1
  | _ => 0

/-- How much more detail all words ask for. -/
def totalDetail : List OptionWord → Nat
  | [] => 0
  | w :: ws => w.detail + totalDetail ws

/-- What the words say about an option with a value: the last value given. -/
def lastValue (o : Opt) (ws : List OptionWord) : Given :=
  match (ws.filterMap (valueFor? o)).getLast? with
  | some v => .word v
  | none => .absent

/-- Do the words name the option? -/
def names (o : Opt) (ws : List OptionWord) : Bool := ws.any fun w => w.option = o

/-- What the words and a group of files say together. -/
def meaning (ws : List OptionWord) (files : List String) : Options where
  files := files
  image := lastValue .image ws
  mountDir := lastValue .mountDir ws
  destDir := lastValue .destDir ws
  config := lastValue .config ws
  log := lastValue .log ws
  noSudo := names .noSudo ws
  dryRun := names .dryRun ws
  verbose := totalDetail ws

end OptionWord

/-! ## Reading single words -/

theorem forall_ne_equals {cs : List Char} (h : '=' ∉ cs) :
    ∀ c ∈ cs, decide (c ≠ '=') = true := by
  rintro c hc
  rw [decide_eq_true_iff]
  rintro rfl
  exact h hc

theorem splitValue_of_not_mem {cs : List Char} (h : '=' ∉ cs) : splitValue cs = (cs, none) := by
  unfold splitValue
  rw [List.dropWhile_eq_nil_iff.2 (forall_ne_equals h)]

/-- A word is split at its first equals sign. -/
theorem splitValue_append {cs : List Char} (h : '=' ∉ cs) (v : List Char) :
    splitValue (cs ++ '=' :: v) = (cs, some v) := by
  have hall := forall_ne_equals h
  unfold splitValue
  rw [List.dropWhile_append_of_pos hall, List.takeWhile_append_of_pos hall]
  simp

/-- No option of one letter is longer than two characters. -/
theorem exactly?_long (c : Char) (r : List Char) : exactly? ('-' :: '-' :: c :: r) =
    (Opt.all.find? fun o => o.long.toList == '-' :: '-' :: c :: r).map (·, false) := by
  unfold exactly?
  cases Opt.all.find? fun o => o.long.toList == '-' :: '-' :: c :: r <;> rfl

theorem equals_not_mem_long (o : Opt) : '=' ∉ o.long.toList := by
  cases o <;> decide

namespace Spelling

variable {o : Opt} (s : Spelling o)

/-- A spelling goes beyond the two dashes, with which all options start. -/
theorem eq_cons : ∃ c r, s.chars = '-' :: '-' :: c :: r := by
  have hdashes : ∀ o : Opt, ['-', '-'] <+: o.long.toList := by
    intro o
    cases o <;> decide
  rcases Nat.lt_or_ge 2 s.chars.length with hlong | hshort
  · obtain ⟨t, ht⟩ := List.prefix_of_prefix_length_le (hdashes o) s.starts (Nat.le_of_lt hlong)
    rw [← ht] at hlong
    match t with
    | [] => simp at hlong
    | c :: r => exact ⟨c, r, ht.symm⟩
  · have hall : ∀ o' : Opt, s.chars <+: o'.long.toList := fun o' =>
      (List.prefix_of_prefix_length_le s.starts (hdashes o) hshort).trans (hdashes o')
    exact absurd ((s.alone .image (hall _)).trans (s.alone .log (hall _)).symm) (by decide)

theorem equals_not_mem : '=' ∉ s.chars := fun h => equals_not_mem_long o (s.starts.subset h)

theorem isPrefixOf_iff (o' : Opt) : s.chars.isPrefixOf o'.long.toList = true ↔ o' = o := by
  rw [List.isPrefixOf_iff_prefix]
  refine ⟨s.alone o', ?_⟩
  rintro rfl
  exact s.starts

theorem abbreviated_chars : abbreviated s.chars = [o] := by
  have hfilter : abbreviated s.chars = Opt.all.filter (· = o) :=
    List.filter_congr fun o' _ => by
      rw [Bool.eq_iff_iff, s.isPrefixOf_iff, decide_eq_true_iff]
  rw [hfilter]
  cases o <;> rfl

theorem exactly?_chars : exactly? s.chars = none ∨ exactly? s.chars = some (o, false) := by
  obtain ⟨c, r, hs⟩ := s.eq_cons
  rw [hs, exactly?_long]
  cases hfind : Opt.all.find? fun o' => o'.long.toList == '-' :: '-' :: c :: r with
  | none => exact .inl rfl
  | some o' =>
    have hsame : o'.long.toList = s.chars := by simpa [hs] using List.find?_some hfind
    rw [s.alone o' (hsame ▸ List.prefix_refl _)]
    exact .inr rfl

/-- A spelling is read as its option. -/
theorem readWord_chars : readWord s.chars = .ok (.option o none false) := by
  obtain ⟨c, r, hs⟩ := s.eq_cons
  have hhead : ¬s.chars.head? ≠ some '-' := by simp [hs]
  have hlength : ¬s.chars.length = 1 := by simp [hs]
  have hdashes : s.chars.take 2 = ['-', '-'] := by simp [hs]
  have hsplit := splitValue_of_not_mem s.equals_not_mem
  unfold readWord
  rw [if_neg hhead]
  rcases s.exactly?_chars with hnone | hsome
  · simp only [hnone, hsplit, if_neg hlength, if_pos hdashes, readLong, s.abbreviated_chars]
    rfl
  · rw [hsome]

/-- A spelling with a value after an equals sign is read as its option with the value. -/
theorem readWord_value (v : List Char) :
    readWord (s.chars ++ '=' :: v) = .ok (.option o (some (String.ofList v)) false) := by
  obtain ⟨c, r, hs⟩ := s.eq_cons
  have hhead : ¬(s.chars ++ '=' :: v).head? ≠ some '-' := by simp [hs]
  have hlength : ¬(s.chars ++ '=' :: v).length = 1 := by simp [hs]
  have hdashes : (s.chars ++ '=' :: v).take 2 = ['-', '-'] := by simp [hs]
  have hsplit := splitValue_append s.equals_not_mem v
  have hexact : exactly? (s.chars ++ '=' :: v) = none := by
    have hfind : (Opt.all.find? fun o' => o'.long.toList == s.chars ++ '=' :: v) = none := by
      refine List.find?_eq_none.2 fun o' _ h => equals_not_mem_long o' ?_
      rw [eq_of_beq h]
      simp
    rw [hs] at hfind ⊢
    exact (exactly?_long c _).trans (congrArg _ hfind)
  unfold readWord
  rw [if_neg hhead, hexact]
  simp only [if_neg hlength, hsplit]
  rcases s.exactly?_chars with hnone | hsome
  · simp only [hnone, if_pos hdashes, readLong, hsplit, s.abbreviated_chars]
    rfl
  · rw [hsome]

end Spelling

/-- A word without a dash at its start is a file. -/
theorem readWord_file {cs : List Char} (h : cs.head? ≠ some '-') :
    readWord cs = .ok (.file (String.ofList cs)) :=
  if_pos h

theorem equals_not_mem_details (n : Nat) : '=' ∉ '-' :: List.replicate n 'v' := by
  simp [List.mem_replicate]

/-- The letter for detail is read as an option of one letter, the letters after it as its value. -/
theorem readWord_details (n : Nat) : readWord ('-' :: List.replicate (n + 1) 'v') =
    .ok (.option .verbose (if n = 0 then none else some (String.ofList (List.replicate n 'v')))
      true) := by
  cases n with
  | zero => rfl
  | succ n =>
    have hsplit := splitValue_of_not_mem (equals_not_mem_details (n + 2))
    have hexact : exactly? ('-' :: List.replicate (n + 2) 'v') = none := rfl
    unfold readWord
    rw [if_neg (by simp), hexact]
    simp only [hsplit]
    rfl

namespace OptionWord

/-- What a word is read as. -/
def item : OptionWord → Item
  | value o _ _ v _ => .option o (some v) false
  | switch o _ _ => .option o none false
  | details n =>
    .option .verbose (if n = 0 then none else some (String.ofList (List.replicate n 'v'))) true

theorem readWord_word (w : OptionWord) : readWord w.word.toList = .ok w.item := by
  cases w with
  | value o takes s v unmarked =>
    rw [word, String.toList_ofList, s.readWord_value, String.ofList_toList]
    rfl
  | switch o isSwitch s =>
    rw [word, String.toList_ofList, s.readWord_chars]
    rfl
  | details n =>
    rw [word, String.toList_ofList, readWord_details]
    rfl

/-- No word is the mark that ends the options. -/
theorem word_ne_mark (w : OptionWord) : w.word ≠ "--" := by
  intro h
  have h : w.word.toList = ['-', '-'] := congrArg String.toList h
  cases w with
  | value o takes s v unmarked =>
    obtain ⟨c, r, hs⟩ := s.eq_cons
    simp [word, hs] at h
  | switch o isSwitch s =>
    obtain ⟨c, r, hs⟩ := s.eq_cons
    simp [word, hs] at h
  | details n => simp [word, List.replicate_succ] at h

end OptionWord

/-! ## Reading all words -/

/-- Words that are each read by itself, before others. -/
theorem readWords_append {α : Type} {word : α → String} {item : α → Item} {xs : List α}
    (hmark : ∀ x ∈ xs, word x ≠ "--")
    (hread : ∀ x ∈ xs, readWord (word x).toList = .ok (item x)) {rest : List String}
    {items : List Item} (hrest : readWords rest = .ok items) :
    readWords (xs.map word ++ rest) = .ok (xs.map item ++ items) := by
  induction xs with
  | nil => exact hrest
  | cons x xs ih =>
    obtain ⟨hfirst, hothers⟩ := List.forall_mem_cons.1 hmark
    obtain ⟨hfirst', hothers'⟩ := List.forall_mem_cons.1 hread
    rw [List.map_cons, List.cons_append, readWords, if_neg hfirst, hfirst', ih hothers hothers']
    rfl

/-- The words of files are none that start with a dash. -/
def AreFiles (files : List String) : Prop := ∀ f ∈ files, f.toList.head? ≠ some '-'

theorem AreFiles.ne_mark {files : List String} (h : AreFiles files) : ∀ f ∈ files, f ≠ "--" := by
  rintro _ hf rfl
  exact h _ hf rfl

theorem readWords_map_word (ws : List OptionWord) :
    readWords (ws.map OptionWord.word) = .ok (ws.map OptionWord.item) := by
  have hall : readWords (ws.map OptionWord.word ++ []) = .ok (ws.map OptionWord.item ++ []) :=
    readWords_append (fun w _ => w.word_ne_mark) (fun w _ => w.readWord_word) rfl
  rwa [List.append_nil, List.append_nil] at hall

theorem readWords_arranged {files : List String} (hfiles : AreFiles files)
    (before after : List OptionWord) :
    readWords (before.map OptionWord.word ++ files ++ after.map OptionWord.word) =
      .ok (before.map OptionWord.item ++ (files.map .file ++ after.map OptionWord.item)) := by
  have hread : ∀ f ∈ files, readWord (id f).toList = .ok (.file f) := fun f hf => by
    rw [id, readWord_file (hfiles f hf), String.ofList_toList]
  have hmiddle : readWords (files.map id ++ after.map OptionWord.word) =
      .ok (files.map .file ++ after.map OptionWord.item) :=
    readWords_append hfiles.ne_mark hread (readWords_map_word after)
  rw [List.map_id] at hmiddle
  rw [List.append_assoc]
  exact readWords_append (fun w _ => w.word_ne_mark) (fun w _ => w.readWord_word) hmiddle

/-! ## What the words say one after the other -/

namespace OptionWord

/-- The options after a word. -/
def apply (o : Options) : OptionWord → Options
  | value opt _ _ v _ => o.give opt (.word v)
  | switch .noSudo _ _ => { o with noSudo := true }
  | switch .dryRun _ _ => { o with dryRun := true }
  | switch .verbose _ _ => { o with verbose := o.verbose + 1 }
  | switch _ _ _ => o
  | details n => { o with verbose := o.verbose + (n + 1) }

/-- Words say nothing about the files. -/
theorem apply_files (o : Options) (files : List String) (w : OptionWord) :
    apply { o with files := files } w = { apply o w with files := files } := by
  cases w with
  | value opt takes s v unmarked => cases opt <;> rfl
  | switch opt isSwitch s => cases opt <;> rfl
  | details n => rfl

theorem foldl_apply_files (files : List String) (ws : List OptionWord) (o : Options) :
    ws.foldl apply { o with files := files } = { ws.foldl apply o with files := files } := by
  induction ws generalizing o with
  | nil => rfl
  | cons w ws ih => rw [List.foldl_cons, apply_files, ih, List.foldl_cons]

theorem lastValue_concat (o : Opt) (ws : List OptionWord) (w : OptionWord) :
    lastValue o (ws ++ [w]) = match w.valueFor? o with
      | some v => .word v
      | none => lastValue o ws := by
  unfold lastValue
  rw [List.filterMap_append, List.filterMap_cons, List.filterMap_nil]
  cases w.valueFor? o with
  | none => rw [List.append_nil]
  | some v => rw [List.getLast?_concat]

theorem names_concat (o : Opt) (ws : List OptionWord) (w : OptionWord) :
    names o (ws ++ [w]) = (names o ws || decide (w.option = o)) := by
  simp [names]

theorem totalDetail_concat (ws : List OptionWord) (w : OptionWord) :
    totalDetail (ws ++ [w]) = totalDetail ws + w.detail := by
  induction ws with
  | nil => exact Nat.add_comm _ _
  | cons w' ws ih => rw [List.cons_append, totalDetail, totalDetail, ih, Nat.add_assoc]

theorem meaning_concat (files : List String) (ws : List OptionWord) (w : OptionWord) :
    meaning (ws ++ [w]) files = apply (meaning ws files) w := by
  simp only [meaning, lastValue_concat, names_concat, totalDetail_concat]
  cases w with
  | value opt takes s v unmarked =>
    cases opt <;> first
      | exact absurd takes (by decide)
      | simp [apply, Options.give, valueFor?, option, detail]
  | switch opt isSwitch s =>
    cases opt <;> first
      | exact absurd isSwitch (by decide)
      | simp [apply, valueFor?, option, detail]
  | details n => simp [apply, valueFor?, option, detail]

/-- Said one after the other, words have their meaning. -/
theorem foldl_apply (ws : List OptionWord) : ws.foldl apply {} = meaning ws [] := by
  induction ws using List.reverseRecOn with
  | nil => rfl
  | append_singleton ws w ih => rw [List.foldl_append, ih, meaning_concat]; rfl

/-! ## What does not matter -/

theorem valueFor?_of_ne {o : Opt} {w : OptionWord} (h : w.option ≠ o) : w.valueFor? o = none := by
  cases w with
  | value o' takes s v unmarked => exact if_neg h
  | switch o' isSwitch s => rfl
  | details n => rfl

theorem detail_of_ne {w : OptionWord} (h : w.option ≠ .verbose) : w.detail = 0 := by
  cases w with
  | value o takes s v unmarked => rfl
  | switch o isSwitch s =>
    cases o with
    | verbose => exact absurd rfl h
    | _ => rfl
  | details n => exact absurd rfl h

/-- The words for one option. -/
def wordsFor (o : Opt) (ws : List OptionWord) : List OptionWord :=
  ws.filter fun w => w.option = o

theorem lastValue_wordsFor (o : Opt) (ws : List OptionWord) :
    lastValue o (wordsFor o ws) = lastValue o ws := by
  have hvalues : (wordsFor o ws).filterMap (valueFor? o) = ws.filterMap (valueFor? o) := by
    induction ws with
    | nil => rfl
    | cons w ws ih =>
      unfold wordsFor at ih ⊢
      by_cases h : w.option = o
      · rw [List.filter_cons_of_pos (by simpa using h), List.filterMap_cons, List.filterMap_cons,
          ih]
      · rw [List.filter_cons_of_neg (by simpa using h), List.filterMap_cons, valueFor?_of_ne h, ih]
  rw [lastValue, hvalues, lastValue]

theorem names_wordsFor (o : Opt) (ws : List OptionWord) : names o (wordsFor o ws) = names o ws := by
  simp [names, wordsFor, List.any_filter]

theorem totalDetail_wordsFor (ws : List OptionWord) :
    totalDetail (wordsFor .verbose ws) = totalDetail ws := by
  induction ws with
  | nil => rfl
  | cons w ws ih =>
    unfold wordsFor at ih ⊢
    by_cases h : w.option = .verbose
    · rw [List.filter_cons_of_pos (by simpa using h), totalDetail, ih, totalDetail]
    · rw [List.filter_cons_of_neg (by simpa using h), ih, totalDetail, detail_of_ne h,
        Nat.zero_add]

/-- Words mean the same in every order that keeps the words of each option in theirs. -/
theorem meaning_congr {ws ws' : List OptionWord} (h : ∀ o, wordsFor o ws = wordsFor o ws')
    (files : List String) : meaning ws files = meaning ws' files := by
  have hvalue : ∀ o, lastValue o ws = lastValue o ws' := fun o => by
    rw [← lastValue_wordsFor, h, lastValue_wordsFor]
  have hnames : ∀ o, names o ws = names o ws' := fun o => by
    rw [← names_wordsFor, h, names_wordsFor]
  have hdetail : totalDetail ws = totalDetail ws' := by
    rw [← totalDetail_wordsFor, h, totalDetail_wordsFor]
  simp only [meaning, hvalue, hnames, hdetail]

end OptionWord

/-! ## Reading option words and files -/

theorem cluster_details (n : Nat) :
    cluster .verbose (List.replicate n 'v') = .ok (List.replicate (n + 1) .verbose) := by
  induction n with
  | zero => rfl
  | succ n ih =>
    rw [List.replicate_succ, cluster]
    show (do return Opt.verbose :: (← cluster .verbose (List.replicate n 'v'))) = _
    rw [ih]
    rfl

theorem foldlM_name_details (o : Options) (n : Nat) :
    (List.replicate n Opt.verbose).foldlM Options.name o =
      .ok { o with verbose := o.verbose + n } := by
  induction n generalizing o with
  | zero => rfl
  | succ n ih =>
    rw [List.replicate_succ, List.foldlM_cons]
    show (List.replicate n Opt.verbose).foldlM Options.name { o with verbose := o.verbose + 1 } = _
    rw [ih, Nat.add_right_comm]
    rfl

/-- An option that does not lack a value ends the group of files before it. -/
theorem readItems_option {o : Opt} {value : Option String} (h : ¬(o.takesValue ∧ value = none))
    (p : Progress) (group : List Item) (isShort : Bool) (rest : List Item) :
    readItems p group (.option o value isShort :: rest) =
      (p.takeFiles group.reverse).takeOption o value isShort >>= fun p => readItems p [] rest := by
  rw [readItems.eq_def]
  exact if_neg h

/-- An option word changes the options and nothing else. -/
theorem readItems_item (p : Progress) (group : List Item) (w : OptionWord) (rest : List Item) :
    readItems p group (w.item :: rest) =
      readItems { p.takeFiles group.reverse with
        options := w.apply (p.takeFiles group.reverse).options } [] rest := by
  generalize hq : p.takeFiles group.reverse = q
  cases w with
  | value o takes s v unmarked =>
    rw [OptionWord.item, readItems_option (by simp), hq, Progress.takeOption]
    simp only [takes, if_true, givenOf, if_neg unmarked]
    rfl
  | switch o isSwitch s =>
    have htakes : ¬o.takesValue = true := by
      cases o <;> first | decide | exact absurd isSwitch (by decide)
    rw [OptionWord.item, readItems_option fun h => htakes h.1, hq, Progress.takeOption]
    cases o <;> first | rfl | exact absurd isSwitch (by decide)
  | details n =>
    rw [OptionWord.item, readItems_option (by simp [Opt.takesValue]), hq]
    cases n with
    | zero => rfl
    | succ n =>
      have htake : q.takeOption .verbose (some (String.ofList (List.replicate (n + 1) 'v'))) true =
          .ok { q with options := { q.options with verbose := q.options.verbose + (n + 2) } } := by
        have hcluster : cluster .verbose
            (String.ofList (List.replicate (n + 1) 'v')).toList =
              .ok (List.replicate (n + 2) .verbose) := by
          rw [String.toList_ofList, cluster_details]
        have hword : String.ofList (List.replicate (n + 1) 'v') ≠ "" := fun h => by
          have h := congrArg String.toList h
          simp [List.replicate_succ] at h
        rw [Progress.takeOption]
        simp only [hcluster]
        rw [if_neg (by decide), if_pos ⟨trivial, hword⟩, Progress.nameAll, foldlM_name_details]
        rfl
      rw [if_neg (Nat.succ_ne_zero n), htake]
      rfl

theorem readItems_items (ws : List OptionWord) (p : Progress) (rest : List Item) :
    readItems p [] (ws.map OptionWord.item ++ rest) =
      readItems { p with options := ws.foldl OptionWord.apply p.options } [] rest := by
  induction ws generalizing p with
  | nil => rfl
  | cons w ws ih =>
    rw [List.map_cons, List.cons_append, readItems_item, ih]
    rfl

/-- Files wait until their group is whole. -/
theorem readItems_files (files : List String) (p : Progress) (group rest : List Item) :
    readItems p group (files.map .file ++ rest) =
      readItems p ((files.map Item.file).reverse ++ group) rest := by
  induction files generalizing group with
  | nil => rfl
  | cons f files ih =>
    rw [List.map_cons, List.cons_append, readItems, ih, List.reverse_cons, List.append_assoc]
    rfl

/-- The words at the end, after a group of files. -/
theorem readItems_group (ws : List OptionWord) (p : Progress) (group : List Item) :
    readItems p group (ws.map OptionWord.item) = .ok { p.takeFiles group.reverse with
      options := ws.foldl OptionWord.apply (p.takeFiles group.reverse).options } := by
  cases ws with
  | nil => rfl
  | cons w ws =>
    rw [List.map_cons, readItems_item, ← List.append_nil (ws.map _), readItems_items]
    rfl

theorem filesOf_files {files : List String} (h : AreFiles files) :
    filesOf (files.map .file) = files := by
  have hwords : (files.map Item.file).map Item.word = files := by
    rw [List.map_map]
    exact List.map_id files
  rw [filesOf, hwords, List.erase_of_not_mem fun hmem => h.ne_mark _ hmem rfl]

theorem takeFiles_files {files : List String} (h : AreFiles files) {o : Options}
    (hnone : o.files = []) :
    ((⟨o, false, []⟩ : Progress).takeFiles (files.map .file)).options =
        { o with files := files } ∧
      ((⟨o, false, []⟩ : Progress).takeFiles (files.map .file)).extra = [] := by
  cases files with
  | nil =>
    have hsame : { o with files := [] } = o := by rw [← hnone]
    exact ⟨hsame.symm, rfl⟩
  | cons f files =>
    have hfiles := filesOf_files h
    refine ⟨?_, rfl⟩
    show { o with files := filesOf _ } = _
    rw [hfiles]

/-! ## Arrangements -/

/-- Option words and a group of files between them are read as what they mean. -/
theorem parse_eq_meaning {files : List String} (hfiles : AreFiles files)
    (before after : List OptionWord) :
    parse (before.map OptionWord.word ++ files ++ after.map OptionWord.word) =
      .ok (OptionWord.meaning (before ++ after) files) := by
  have hnone : (before.foldl OptionWord.apply {}).files = [] := by
    rw [OptionWord.foldl_apply]
    rfl
  obtain ⟨hoptions, hextra⟩ := takeFiles_files hfiles hnone
  have hmeaning : after.foldl OptionWord.apply
      { before.foldl OptionWord.apply {} with files := files } =
        OptionWord.meaning (before ++ after) files := by
    rw [OptionWord.foldl_apply_files, ← List.foldl_append, OptionWord.foldl_apply]
    rfl
  rw [parse, readWords_arranged hfiles before after]
  show (readItems ⟨{}, false, []⟩ [] _ >>= _) = _
  rw [readItems_items, readItems_files, readItems_group, List.append_nil, List.reverse_reverse]
  simp only [hoptions, hmeaning]
  show (if _ = [] then _ else _) = _
  rw [if_pos hextra]
  rfl

/-- Option words and one group of files are read as what they mean, wherever the group stands and
in every order that keeps the words of each option in theirs. -/
theorem parse_arranged {files : List String} (hfiles : AreFiles files)
    (before after : List OptionWord) :
    parse (before.map OptionWord.word ++ files ++ after.map OptionWord.word) =
        .ok (OptionWord.meaning (before ++ after) files) ∧
      ∀ before' after' : List OptionWord,
        (∀ o, OptionWord.wordsFor o (before ++ after) = OptionWord.wordsFor o (before' ++ after')) →
          parse (before'.map OptionWord.word ++ files ++ after'.map OptionWord.word) =
            parse (before.map OptionWord.word ++ files ++ after.map OptionWord.word) := by
  have hmeaning := parse_eq_meaning hfiles
  refine ⟨hmeaning before after, fun before' after' hsame => ?_⟩
  rw [hmeaning, hmeaning, OptionWord.meaning_congr hsame]

/-- A start of the option for the image that fits no other one. -/
def Spelling.im : Spelling .image where
  chars := ['-', '-', 'i', 'm']
  starts := by decide
  alone o := by cases o <;> decide

/-- The option for the image in full. -/
def Spelling.image : Spelling .image where
  chars := "--image".toList
  starts := List.prefix_refl _
  alone o := by cases o <;> decide

/-- The option against raised rights, shortened. -/
def Spelling.no : Spelling .noSudo where
  chars := "--no".toList
  starts := by decide
  alone o := by cases o <;> decide

/-- Two files between an image that is replaced later and the words after it; they may as well
stand at the end, with the words for detail and rights before the images. -/
theorem parse_arranged_images :
    parse ["--im=a b", "-vv", "f", "", "--no", "--image=--x=y"] =
        .ok { files := ["f", ""], image := .word "--x=y", noSudo := true, verbose := 2 } ∧
      parse ["--no", "-vv", "--im=a b", "--image=--x=y", "f", ""] =
        parse ["--im=a b", "-vv", "f", "", "--no", "--image=--x=y"] := by
  have hfiles : AreFiles ["f", ""] := by
    unfold AreFiles
    decide
  have h := parse_arranged hfiles
    [.value .image rfl .im "a b" (by decide), .details 1]
    [.switch .noSudo rfl .no, .value .image rfl .image "--x=y" (by decide)]
  exact ⟨h.1, h.2 [.switch .noSudo rfl .no, .details 1, .value .image rfl .im "a b" (by decide),
    .value .image rfl .image "--x=y" (by decide)] [] fun o => by cases o <;> rfl⟩

end FatInstall.CommandLine
