import FatInstall.Proofs.Confinement
import FatInstall.Proofs.Fallback
import FatInstall.Proofs.Routes

/-!
# The destination, as it is written

The directory inside the image is written in several ways: as the settings give it, as the FAT
tools take its levels and the directory to copy into, below the scratch directory while the image is
mounted, and in the path of the copied file. All of them come from one list of pieces, which none
of them loses, repeats or reorders; only the host leaves out single dots.

* `Text.IsTrimmed`: no code point of a class stands at an edge.
* `rooted_rooted`: the directory of the settings is its own normal form.
* `operandsOf`: the last words of the commands of one name, in the order of their starts.
* `destination_agrees`: the ways agree, in the texts and in the commands of every run.
-/

namespace FatInstall

/-! ## Edges -/

/-- Is neither the first nor the last element one of the class? -/
def Text.IsTrimmed {α : Type} (p : α → Bool) (xs : List α) : Prop :=
  ∀ x, xs.head? = some x ∨ xs.getLast? = some x → p x = false

section

variable {α : Type} {p : α → Bool} {xs : List α}

open Text

theorem dropWhile_eq_self (h : ∀ x, xs.head? = some x → p x = false) : xs.dropWhile p = xs := by
  cases xs with
  | nil => rfl
  | cons x xs => rw [List.dropWhile_cons_of_neg (by simp [h x rfl])]

theorem trim_eq_self (h : IsTrimmed p xs) : trim p xs = xs := by
  have hlast : xs.reverse.dropWhile p = xs.reverse :=
    dropWhile_eq_self fun x hx => h x (.inr (by rwa [List.head?_reverse] at hx))
  rw [trim, dropWhile_eq_self fun x hx => h x (.inl hx), trimEnd, hlast, List.reverse_reverse]

theorem isTrimmed_trim (p : α → Bool) (xs : List α) : IsTrimmed p (trim p xs) := by
  have hhead := List.head?_dropWhile_not p xs
  rintro x (hx | hx)
  · rw [trim] at hx
    cases hd : xs.dropWhile p with
    | nil =>
      rw [hd] at hx
      cases hx
    | cons y ys =>
      have hy : p y = false := by simpa [hd] using hhead
      rw [hd, trimEnd_cons hy, List.head?_cons, Option.some.injEq] at hx
      rwa [← hx]
  · have hlast := List.head?_dropWhile_not p (xs.dropWhile p).reverse
    rw [trim, trimEnd, List.getLast?_reverse] at hx
    simpa [hx] using hlast

end

/-- The edges of pieces with slashes between them are edges of pieces. -/
theorem isTrimmed_intercalate {ps : List Text}
    (h : ∀ t ∈ ps, t.isEmpty = false ∧ slash ∉ t.points) :
    Text.IsTrimmed Text.isSlash (Text.intercalate "/" ps).points := by
  induction ps with
  | nil => simp [Text.intercalate, List.intercalate, Text.IsTrimmed]
  | cons p ps ih =>
    obtain ⟨⟨hp, hs⟩, hps⟩ := List.forall_mem_cons.1 h
    have hpoints : ∀ x ∈ p.points, Text.isSlash x = false :=
      fun x hx => isSlash_eq_false fun he => hs (he ▸ hx)
    obtain ⟨c, cs, hc⟩ := List.exists_cons_of_ne_nil (List.isEmpty_eq_false_iff.1 hp)
    cases ps with
    | nil =>
      have he : Text.intercalate "/" [p] = p := by simp [Text.intercalate, List.intercalate]
      rw [he]
      exact fun x hx => hpoints x (hx.elim List.mem_of_mem_head? List.mem_of_getLast?)
    | cons q qs =>
      obtain ⟨xs, hxs⟩ := exists_intercalate_cons q qs
      have hq : q.points ≠ [] := List.isEmpty_eq_false_iff.1 (hps q (.head _)).1
      obtain ⟨d, ds, hd⟩ := List.exists_cons_of_ne_nil hq
      rw [intercalate_cons_cons]
      rintro x (hx | hx)
      · refine hpoints x (List.mem_of_mem_head? ?_)
        simpa [hc] using hx
      · refine ih hps x (.inr ?_)
        rw [List.getLast?_append, List.getLast?_cons] at hx
        rw [hxs, hd] at hx ⊢
        simpa [List.getLast?_cons] using hx

theorem stripSlashes_intercalate {ps : List Text}
    (h : ∀ t ∈ ps, t.isEmpty = false ∧ slash ∉ t.points) :
    Text.stripSlashes (Text.intercalate "/" ps) = Text.intercalate "/" ps :=
  congrArg Text.mk (trim_eq_self (isTrimmed_intercalate h))

/-! ## Rooted directories -/

theorem stripSlashes_slash (t : Text) : Text.stripSlashes ("/" ++ t) = Text.stripSlashes t := rfl

theorem isTrimmed_stripSlashes (t : Text) : Text.IsTrimmed Text.isSlash t.stripSlashes.points :=
  isTrimmed_trim Text.isSlash t.points

theorem stripSlashes_rooted (dir : Text) :
    Text.stripSlashes (Settings.rooted dir) = Text.stripSlashes dir := by
  rw [Settings.rooted, stripSlashes_slash]
  exact congrArg Text.mk (trim_eq_self (isTrimmed_stripSlashes dir))

/-- The directory of the settings is its own normal form. -/
theorem rooted_rooted (dir : Text) :
    Settings.rooted (Settings.rooted dir) = Settings.rooted dir := by
  rw [Settings.rooted, stripSlashes_rooted, Settings.rooted]

theorem points_rooted (dir : Text) :
    (Settings.rooted dir).points = slash :: dir.stripSlashes.points :=
  rfl

theorem takeWhile_rooted (dir : Text) :
    (Settings.rooted dir).points.takeWhile Text.isSlash = [slash] := by
  have hslash : Text.isSlash slash = true := rfl
  rw [points_rooted, List.takeWhile_cons_of_pos hslash]
  cases h : dir.stripSlashes.points with
  | nil => rfl
  | cons x xs =>
    have hx : Text.isSlash x = false := isTrimmed_stripSlashes dir x (.inl (by rw [h]; rfl))
    rw [List.takeWhile_cons_of_neg (by simp [hx])]

/-- Only the root ends in a slash. -/
theorem getLast?_rooted (dir : Text) :
    Settings.rooted dir = "/" ∨ (Settings.rooted dir).points.getLast? ≠ some slash := by
  cases h : dir.stripSlashes.points with
  | nil =>
    left
    have hdir : dir.stripSlashes = .empty := congrArg Text.mk h
    rw [Settings.rooted, hdir]
    rfl
  | cons x xs =>
    right
    rw [points_rooted, h, List.getLast?_cons_cons, ← h]
    intro hlast
    cases isTrimmed_stripSlashes dir slash (.inr hlast)

/-! ## Pieces -/

namespace Offline

theorem mem_pieces {dir t : Text} (h : t ∈ pieces dir) : t.isEmpty = false ∧ slash ∉ t.points := by
  obtain ⟨hm, hne⟩ := List.mem_filter.1 h
  exact ⟨by simpa using hne, slash_not_mem_of_mem_slashPieces hm⟩

/-- On the host, pieces that are single dots lead nowhere. -/
theorem filter_pieces_dot (dir : Text) : (pieces dir).filter (· != ("." : Text)) = steps dir := by
  rw [← Job.filter_pieces]
  refine List.filter_congr fun t ht => ?_
  simp [Path.isStep, (mem_pieces ht).1]

/-- Each level is what the FAT tools take for so many of the pieces. -/
theorem drivePath_levels (dir : Text) :
    (levels dir).map drivePath = (List.range (pieces dir).length).map fun i =>
      "::/" ++ Text.intercalate "/" ((pieces dir).take (i + 1)) := by
  rw [levels, List.map_map]
  refine List.map_congr_left fun i _ => ?_
  have hpieces : ∀ t ∈ (pieces dir).take (i + 1), t.isEmpty = false ∧ slash ∉ t.points :=
    fun t ht => mem_pieces (List.mem_of_mem_take ht)
  rw [Function.comp_apply, drivePath, stripSlashes_slash, stripSlashes_intercalate hpieces]

/-- The directory to copy into has the same pieces, between slashes at its edges. -/
theorem exists_driveDirectory (dir : Text) : ∃ inner : Text, driveDirectory dir = "::" ++ inner ∧
    inner.points.head? = some slash ∧ inner.points.getLast? = some slash ∧
      pieces inner = pieces dir := by
  have hcolon : Text.isSlash (.char ':') = false := rfl
  let inner := Text.trimEnd Text.isSlash (slash :: dir.stripSlashes.points)
  refine ⟨⟨inner ++ [slash]⟩, ?_, ?_, List.getLast?_concat, ?_⟩
  · have he : (driveDirectory dir).points =
        Text.trimEnd Text.isSlash
          (.char ':' :: .char ':' :: slash :: dir.stripSlashes.points) ++ [slash] := rfl
    rw [trimEnd_cons hcolon, trimEnd_cons hcolon] at he
    exact congrArg Text.mk he
  · have hpre : inner <+: slash :: dir.stripSlashes.points :=
      List.reverse_suffix.1 (by simpa [inner, Text.trimEnd] using List.dropWhile_suffix _)
    cases h : inner with
    | nil => rfl
    | cons x xs =>
      rw [h] at hpre
      rw [(List.cons_prefix_cons.1 hpre).1]
      rfl
  · have hk : (!Text.isEmpty .empty) = false := rfl
    exact (keptPieces_append_slash hk _).trans ((keptPieces_trimEnd hk _).trans
      ((keptPieces_cons_slash hk _).trans (keptPieces_stripSlashes hk dir)))

end Offline

/-- The name of a path has no slash. -/
theorem Path.IsClean.slash_not_mem_name {p : Path} (hp : p.IsClean) : slash ∉ p.name.points := by
  rw [Path.name]
  cases h : p.parts.getLast? with
  | none => exact List.not_mem_nil
  | some t => exact (hp t (List.mem_of_getLast? h)).2

/-- The path of the copied file has the pieces of the directory and then the name of the file. -/
theorem Job.pieces_destPath {j : Job} (hs : j.source.IsClean)
    (hn : j.source.name.isEmpty = false) :
    Offline.pieces j.destPath = Offline.pieces j.destDir ++ [j.source.name] := by
  have hk : (!Text.isEmpty .empty) = false := rfl
  have he : j.destPath =
      ⟨Text.trimEnd Text.isSlash j.destDir.points ++ slash :: j.source.name.points⟩ :=
    congrArg Text.mk (List.append_assoc ..)
  have hname : keptPieces (!·.isEmpty) j.source.name = [j.source.name] := by
    rw [keptPieces_piece _ hs.slash_not_mem_name]
    simp [hn]
  have hdir : keptPieces (!·.isEmpty) ⟨Text.trimEnd Text.isSlash j.destDir.points⟩ =
      Offline.pieces j.destDir := keptPieces_trimEnd hk _
  rw [he, ← hname, ← hdir]
  exact keptPieces_join ..

/-! ## Operands -/

/-- The last word of a command of the given name. -/
def Start.operand? (name : Text) (s : Start) : Option Text :=
  if (unprivileged s.argv).head? = some name then (unprivileged s.argv).getLast? else none

/-- The last words of the commands of the given name, in the order of their starts. -/
def operandsOf (name : Text) (trace : List Event) : List Text :=
  (startsOf trace).filterMap (Start.operand? name)

theorem operandsOf_append (name : Text) (t u : List Event) :
    operandsOf name (t ++ u) = operandsOf name t ++ operandsOf name u := by
  rw [operandsOf, startsOf_append, List.filterMap_append]
  rfl

theorem operandsOf_actsOf (name : Text) (trace : List Event) :
    operandsOf name (actsOf trace) = operandsOf name trace := by
  rw [operandsOf, startsOf_actsOf, operandsOf]

theorem Tools.operand?_start (t : Tools) (name : Text) (c : Call) :
    (t.start c).operand? name = if c.name = name then c.words.getLast? else none := by
  have hhead : c.words.head? = some c.name := by cases c <;> rfl
  rw [FatInstall.Start.operand?, Tools.start, unprivileged_argv, hhead]
  simp only [Option.some.injEq]

namespace Job

variable {touch : Host → Host → Prop} {j : Job} {h h' : Host} {acts : List Event} {name : Text}

theorem operandsOf_event (name : Text) (c : Call) (r : Reply) (acts : List Event) :
    operandsOf name (j.event c r :: acts) =
      (if c.name = name then c.words.getLast? else none).toList ++ operandsOf name acts := by
  rw [← Tools.operand?_start j.tools]
  have hstart : startsOf (j.event c r :: acts) = j.tools.start c :: startsOf acts := rfl
  rw [operandsOf, hstart, List.filterMap_cons]
  split
  · next hnone =>
    rw [hnone]
    rfl
  · next hsome =>
    rw [hsome]
    rfl

theorem Uses.operandsOf_eq_nil {names : List Text} (hu : j.Uses names acts) (hn : name ∉ names) :
    operandsOf name acts = [] := by
  refine List.filterMap_eq_nil_iff.2 fun s hs => ?_
  rw [startsOf_eq_map] at hs
  obtain ⟨x, hx, rfl⟩ := List.mem_map.1 hs
  obtain ⟨c, hc, he⟩ := hu x hx
  have hne : c.name ≠ name := fun he => hn (he ▸ hc)
  rw [he, Tools.operand?_start, if_neg hne]

/-- Directories inside the image are made in their order, all of them if none fails to be tried. -/
theorem Making.operands {dirs : List Text} {res : Except Failure Unit}
    (hm : j.Making touch dirs h acts res h') :
    operandsOf "mcopy" acts = [] ∧ operandsOf "mmd" acts <+: dirs.map drivePath ∧
      (res = .ok () → operandsOf "mmd" acts = dirs.map drivePath) := by
  have hcopy : ∀ dir r more, operandsOf "mcopy" (j.event (.mmd j.image dir) r :: more) =
      operandsOf "mcopy" more := fun dir r more => operandsOf_event ..
  have hmake : ∀ dir r more, operandsOf "mmd" (j.event (.mmd j.image dir) r :: more) =
      drivePath dir :: operandsOf "mmd" more := fun dir r more => operandsOf_event ..
  induction hm with
  | done => exact ⟨rfl, List.nil_prefix, fun _ => rfl⟩
  | broken =>
    rw [hcopy, hmake]
    exact ⟨rfl, List.cons_prefix_cons.2 ⟨rfl, List.nil_prefix⟩, nofun⟩
  | next _ _ _ ih =>
    obtain ⟨hnone, hpre, hall⟩ := ih
    rw [hcopy, hmake]
    exact ⟨hnone, List.cons_prefix_cons.2 ⟨rfl, hpre⟩, fun hres => congrArg _ (hall hres)⟩

/-- The offline way makes the levels of the destination and then copies into it, or fails
before. -/
theorem OfflineCourse.operands {res : Except Failure Placement}
    (ho : j.OfflineCourse touch h acts res h') :
    operandsOf "mmd" acts = (Offline.levels j.destDir).map drivePath ∧
        operandsOf "mcopy" acts = [driveDirectory j.destDir] ∨
      operandsOf "mmd" acts <+: (Offline.levels j.destDir).map drivePath ∧
        operandsOf "mcopy" acts = [] ∧ ∃ f, res = .error f := by
  have hmmd : ∀ text r more,
      operandsOf "mmd" (.line text :: j.event (.umount j.mountDir) r :: more) =
        operandsOf "mmd" more := fun _ r more => operandsOf_event _ (.umount j.mountDir) r more
  have hmcopy : ∀ text r more,
      operandsOf "mcopy" (.line text :: j.event (.umount j.mountDir) r :: more) =
        operandsOf "mcopy" more := fun _ r more => operandsOf_event _ (.umount j.mountDir) r more
  have hremoval : ∀ name ∈ (["mmd", "mcopy"] : List Text), ∀ {xs res m m'},
      j.Removal touch m xs res m' → operandsOf name xs = [] := fun name hname _ _ _ _ hr =>
    hr.uses.operandsOf_eq_nil ((by decide : ∀ name ∈ (["mmd", "mcopy"] : List Text),
      name ∉ removalNames) name hname)
  cases ho with
  | broken =>
    rw [hmmd, hmcopy]
    exact .inr ⟨List.nil_prefix, rfl, _, rfl⟩
  | unremoved _ _ hr | mounted _ _ hr =>
    rw [hmmd, hmcopy, hremoval _ (.head _) hr, hremoval _ (.tail _ (.head _)) hr]
    exact .inr ⟨List.nil_prefix, rfl, _, rfl⟩
  | unmade _ _ hr hm =>
    obtain ⟨hnone, hpre, -⟩ := hm.operands
    rw [hmmd, hmcopy, operandsOf_append, operandsOf_append, hremoval _ (.head _) hr,
      hremoval _ (.tail _ (.head _)) hr, hnone]
    exact .inr ⟨hpre, rfl, _, rfl⟩
  | uncopied _ _ hr hm _ _ | done _ _ hr hm _ _ =>
    obtain ⟨hnone, -, hall⟩ := hm.operands
    rw [hmmd, hmcopy]
    simp only [operandsOf_append, hremoval _ (.head _) hr, hremoval _ (.tail _ (.head _)) hr, hnone,
      hall rfl, List.nil_append, operandsOf_event]
    exact .inl ⟨List.append_nil _, rfl⟩

/-- A copy into the mounted image makes the mounted destination and then copies into it, or fails
before; so does what begins with it and has no such commands of its own. -/
theorem Copying.operands_append {xs ys : List Event} {res : Except Failure Unit}
    {res' : Except Failure Placement} (hc : j.Copying touch h xs res h')
    (hys : ∀ name ∈ (["mkdir", "cp"] : List Text), operandsOf name ys = [])
    (hres : ∀ f, res = .error f → ∃ f', res' = .error f') :
    operandsOf "mkdir" (xs ++ ys) = [j.mountedDestDir.text] ∧
      (operandsOf "cp" (xs ++ ys) = [j.mountedDestDir.text ++ "/"] ∨
        operandsOf "cp" (xs ++ ys) = [] ∧ ∃ f, res' = .error f) := by
  simp only [operandsOf_append, hys _ (.head _), hys _ (.tail _ (.head _)), List.append_nil]
  cases hc with
  | unmade =>
    simp only [operandsOf_event]
    exact ⟨rfl, .inr ⟨rfl, hres _ rfl⟩⟩
  | uncopied | copied =>
    simp only [operandsOf_event]
    exact ⟨rfl, .inl rfl⟩

theorem MountedCourse.operands {res : Except Failure Placement}
    (hm : j.MountedCourse touch h acts res h') :
    operandsOf "mkdir" acts = [j.mountedDestDir.text] ∧
      (operandsOf "cp" acts = [j.mountedDestDir.text ++ "/"] ∨
        operandsOf "cp" acts = [] ∧ ∃ f, res = .error f) := by
  have hrelease : ∀ {strict xs res m m'}, j.Release touch strict m xs res m' →
      ∀ name ∈ (["mkdir", "cp"] : List Text), operandsOf name xs = [] :=
    fun hr name hname => hr.uses.operandsOf_eq_nil
      ((by decide : ∀ name ∈ (["mkdir", "cp"] : List Text), name ∉ releaseNames) name hname)
  cases hm with
  | @uncopied _ _ _ res _ _ hc hr =>
    exact hc.operands_append (hrelease hr) fun _ _ => by cases res <;> exact ⟨_, rfl⟩
  | broken hc _ =>
    rw [← List.append_nil acts]
    exact hc.operands_append (fun _ _ => rfl) fun _ _ => ⟨_, rfl⟩
  | unreleased hc hr => exact hc.operands_append (hrelease hr) fun _ _ => ⟨_, rfl⟩
  | done hc hr =>
    refine hc.operands_append (fun name hname => ?_) nofun
    rw [operandsOf_append, hrelease hr name hname]
    rfl

end Job

/-! ## Agreement -/

/-- What a setting gives as the directory inside the image is rooted. -/
theorem Settings.exists_rooted {settings : Settings} {c : Text} (hc : settings.destDir = .ok c) :
    ∃ dir, c = rooted dir := by
  unfold destDir at hc
  split at hc
  · next dir _ =>
    cases hc
    exact ⟨dir, rfl⟩
  · cases hc

theorem Settings.destDir_of_get? {settings : Settings} {dir : Text}
    (h : settings.get? "dest_dir" = some (.text (rooted dir))) :
    settings.destDir = .ok (rooted dir) := by
  have htrue : (Value.text (rooted dir)).isTrue = true := rfl
  simp [destDir, getOr, h, htrue, Value.text?, rooted_rooted]

/-- The commands that the offline way starts for the destination: one for each level, and then one
that copies, unless the run fails before it. -/
theorem Offline.operandsOf_run {j : Job} (hj : j.IsLive) (programs : Programs) (w : World) :
    ∃ added, (run j programs w).2.trace = w.trace ++ added ∧
      (operandsOf "mmd" added = (levels j.destDir).map drivePath ∧
          operandsOf "mcopy" added = [driveDirectory j.destDir] ∨
        operandsOf "mmd" added <+: (levels j.destDir).map drivePath ∧
          operandsOf "mcopy" added = [] ∧ ∃ f, (run j programs w).1 = .error f) := by
  obtain ⟨added, ht, -, -, ho⟩ :=
    Job.obeys_offline (s := .free programs w.journal.openLogs) hj w rfl rfl
  have h := ho.operands
  simp only [operandsOf_actsOf] at h
  exact ⟨added, ht, h⟩

/-- The commands that the mounted way starts for the destination: one that makes it, and one that
copies, unless the run fails before it. -/
theorem Mounted.operandsOf_run {j : Job} (hj : j.IsLive) (programs : Programs) (w : World) :
    ∃ added, (run j programs w).2.trace = w.trace ++ added ∧
      operandsOf "mkdir" added = [j.mountedDestDir.text] ∧
        (operandsOf "cp" added = [j.mountedDestDir.text ++ "/"] ∨
          operandsOf "cp" added = [] ∧ ∃ f, (run j programs w).1 = .error f) := by
  obtain ⟨added, ht, -, -, hm⟩ :=
    Job.obeys_mounted (s := .free programs w.journal.openLogs) hj w rfl rfl
  have h := hm.operands
  simp only [operandsOf_actsOf] at h
  exact ⟨added, ht, h⟩

/-- The ways in which a destination is written all have its pieces, in their order. It is rooted,
and the settings read it back as it is. The FAT tools make its levels one by one and copy into the
last of them; the mounted image has it below the scratch directory, without single dots; and the
copied file is below it. -/
theorem destination_agrees {settings : Settings} {c : Text} {j : Job}
    (hc : settings.destDir = .ok c) (hj : j.destDir = c) (hs : j.source.IsClean)
    (hn : j.source.name.isEmpty = false) :
    let ps := Offline.pieces c
    let levels := (List.range ps.length).map fun i =>
      "::/" ++ Text.intercalate "/" (ps.take (i + 1))
    c.points.takeWhile Text.isSlash = [slash] ∧
    (c = "/" ∨ c.points.getLast? ≠ some slash) ∧
    (∀ again : Settings, again.get? "dest_dir" = some (.text c) → again.destDir = .ok c) ∧
    (∃ inner : Text, driveDirectory c = "::" ++ inner ∧ inner.points.head? = some slash ∧
      inner.points.getLast? = some slash ∧ Offline.pieces inner = ps) ∧
    j.mountedDestDir.anchor = j.mountDir.anchor ∧
    j.mountedDestDir.parts = j.mountDir.parts ++ ps.filter (· != ("." : Text)) ∧
    Offline.pieces j.destPath = ps ++ [j.source.name] ∧
    (Offline.levels c).map drivePath = levels ∧
    (j.IsLive → ∀ programs w,
      (∃ added, (Offline.run j programs w).2.trace = w.trace ++ added ∧
        (operandsOf "mmd" added = levels ∧ operandsOf "mcopy" added = [driveDirectory c] ∨
          operandsOf "mmd" added <+: levels ∧ operandsOf "mcopy" added = [] ∧
            ∃ f, (Offline.run j programs w).1 = .error f)) ∧
      ∃ added, (Mounted.run j programs w).2.trace = w.trace ++ added ∧
        operandsOf "mkdir" added = [j.mountedDestDir.text] ∧
          (operandsOf "cp" added = [j.mountedDestDir.text ++ "/"] ∨
            operandsOf "cp" added = [] ∧ ∃ f, (Mounted.run j programs w).1 = .error f)) := by
  intro ps levels
  obtain ⟨dir, rfl⟩ := Settings.exists_rooted hc
  have hlevels : (Offline.levels (Settings.rooted dir)).map drivePath = levels :=
    Offline.drivePath_levels _
  have hparts : j.mountedDestDir.parts = j.mountDir.parts ++ ps.filter (· != ("." : Text)) := by
    rw [Job.mountedDestDir_eq hj, Offline.filter_pieces_dot, steps_rooted]
  refine ⟨takeWhile_rooted dir, getLast?_rooted dir, fun _ => Settings.destDir_of_get?,
    Offline.exists_driveDirectory _, ?_, hparts, ?_, hlevels, fun hlive programs w => ⟨?_, ?_⟩⟩
  · rw [Job.mountedDestDir_eq hj]
  · rw [Job.pieces_destPath hs hn, hj]
  · rw [← hlevels, ← hj]
    exact Offline.operandsOf_run hlive programs w
  · exact Mounted.operandsOf_run hlive programs w

/-- A destination with a slash too many and a single dot. -/
theorem destination_agrees_dotted :
    let settings := Settings.ofEntries [(.text "dest_dir", .text "a//./b/")]
    let j : Job := ⟨Path.ofText "app.bin", Path.ofText "disk.img", Path.ofText "mnt", "/a//./b",
      ⟨true, false⟩, false⟩
    settings.destDir = .ok "/a//./b" ∧ j.source.IsClean ∧ j.source.name.isEmpty = false ∧
      (Offline.levels j.destDir).map drivePath = (["::/a", "::/a/.", "::/a/./b"] : List Text) ∧
      j.mountedDestDir.parts = (["mnt", "a", "b"] : List Text) := by
  intro settings j
  have hc : settings.destDir = .ok "/a//./b" := eq_ok_of_toOption (by decide +kernel)
  have hs : j.source.IsClean := Path.isClean_ofText _
  have hn : j.source.name.isEmpty = false := by decide +kernel
  obtain ⟨-, -, -, -, -, hparts, -, hlevels, -⟩ := destination_agrees (j := j) hc rfl hs hn
  refine ⟨hc, hs, hn, hlevels.trans (by decide +kernel), hparts.trans (by decide +kernel)⟩

end FatInstall
