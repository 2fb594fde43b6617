import FatInstall.Proofs.Run.Twins
import FatInstall.World.Script

/-!
# What `use_sudo` changes

Whether privileged commands go through `sudo` decides about the words of four commands and about
nothing else. When the programs of the host behave the same with `sudo` before them, an update ends
in the same way with and without it, prints the same and leaves the same host.

* `Script.ignoresPrivilege`: programs that follow a script without `sudo` behave so.
* `admission_eq_of_privilege`: the two updates have the same job, but for its tools.
* `update_twins`: so they go the same way, for all programs that behave so.
* `useSudo_changes_privilege_only`: the property, with the commands that `sudo` stands before.
-/

namespace FatInstall

/-! ## Scripts -/

namespace Script

variable {script : Script}

theorem commandName_words (c : Call) : script.commandName c.words = c.name := by
  have hfirst : ∀ {first second : Text} {rest : List Text}, first ≠ privilegeCommand →
      script.commandName (first :: second :: rest) = first :=
    fun hne => if_neg fun h => hne h.1
  cases c with
  | sync => rfl
  | _ => exact hfirst (by decide)

/-- A script without `sudo` knows a command by its own name. -/
theorem commandName_argv (h : script.responses? privilegeCommand = none) (t : Tools) (c : Call) :
    script.commandName (t.argv c) = c.name := by
  have hsudo : script.commandName ("sudo" :: c.words) = c.name := by
    have hnone : (script.responses? privilegeCommand).isNone = true := by simp [h]
    cases c <;> exact if_pos ⟨rfl, hnone⟩
  unfold Tools.argv Tools.privileged
  split
  · split
    · exact hsudo
    · exact commandName_words c
  · exact commandName_words c

/-- The number of starts of a command is told from the names alone. -/
theorem length_filter_commandName (starts : List Start) (name : Text) :
    (starts.filter fun e => script.commandName e.argv == name).length =
      (starts.map fun e => script.commandName e.argv).count name := by
  rw [List.count, List.countP_map, List.countP_eq_length_filter]
  rfl

/-- Which response a command gets does not depend on the tools that start it. -/
theorem exists_response (h : script.responses? privilegeCommand = none) (from_ : Nat)
    (earlier : List Start) (calls : List Call) (c : Call) :
    ∃ response : Response, ∀ (t : Tools) (host : Host),
      script.programs from_ (earlier ++ calls.map t.start) (t.start c) host =
        (reply (t.argv c) response.ending, response.edits.foldl Host.edit host) := by
  let names := earlier.map (fun e => script.commandName e.argv) ++ calls.map Call.name
  refine ⟨responseAt ((script.responses? c.name).getD []) ((names.drop from_).count c.name),
    fun t host => ?_⟩
  have hnames :
      (earlier ++ calls.map t.start).map (fun e => script.commandName e.argv) = names := by
    rw [List.map_append, List.map_map]
    exact congrArg _ (List.map_congr_left fun c _ => commandName_argv h t c)
  have hname : script.commandName (t.start c).argv = c.name := commandName_argv h t c
  simp only [programs, hname, length_filter_commandName, List.map_drop, hnames]
  rfl

theorem reply_alike (argv argv' : List Text) (ending : Ending) :
    (reply argv ending).Alike (reply argv' ending) := by
  cases ending with
  | exits _ _ _ | interrupt => exact .same _
  | missing | denied => exact .unstarted _ _ _

/-- Programs that follow a script without `sudo` do not care for it. -/
theorem ignoresPrivilege (h : script.responses? privilegeCommand = none) (from_ : Nat)
    (logs : List Nat) : (script.programs from_).IgnoresPrivilege logs := by
  intro earlier calls c host host' hhost
  obtain ⟨response, hresponse⟩ := exists_response h from_ earlier calls c
  rw [hresponse, hresponse]
  exact ⟨reply_alike _ _ _, hhost.edits _⟩

end Script

/-! ## Settings that differ in `use_sudo` -/

/-- Do the settings agree in all that an update reads, but for whether it uses `sudo`? -/
def Settings.AgreeButSudo (s s' : Settings) : Prop :=
  ∀ key ∈ ["image", "mount_dir", "dest_dir", "dry_run"], s'.get? key = s.get? key

variable {s s' : Settings} {source : Path}

/-- The two settings ask for the same job, but for its tools. -/
theorem Settings.AgreeButSudo.job_eq (h : s.AgreeButSudo s') (hdry : s.dryRun = false)
    (hs : s.useSudo = .ok true) (hs' : s'.useSudo = .ok false) (source image : Path) :
    s'.job source image none =
        (s.job source image none).map (·.withTools Tools.plainLive) ∧
      ∀ j, s.job source image none = .ok j → j.tools = Tools.privilegedLive := by
  have hdry' : s'.dryRun = false := (dryRun_congr (h "dry_run" (by simp))).trans hdry
  unfold job tools
  rw [mountDir_congr (h "mount_dir" (by simp)), destDir_congr (h "dest_dir" (by simp)), hs, hs',
    hdry, hdry']
  rcases s.mountDir with v | m
  · exact ⟨rfl, nofun⟩
  rcases s.destDir with v | d
  · exact ⟨rfl, nofun⟩
  refine ⟨rfl, fun j hj => ?_⟩
  cases hj
  rfl

/-- The two updates have the same job, but for its tools. -/
theorem admission_eq_of_privilege (h : s.AgreeButSudo s') (hdry : s.dryRun = false)
    (hs : s.useSudo = .ok true) (hs' : s'.useSudo = .ok false) (source : Path) (host : Host) :
    admission host source s' none =
        (admission host source s none).map (·.withTools Tools.plainLive) ∧
      ∀ j, admission host source s none = .ok j → j.tools = Tools.privilegedLive := by
  unfold admission
  rw [Settings.imagePath_congr (h "image" (by simp))]
  rcases s.imagePath with v | image
  · exact ⟨rfl, nofun⟩
  obtain ⟨heq, htools⟩ := h.job_eq hdry hs hs' source image
  rcases hc : checkInputs host source image with f | _
  · simp [hc, Run.mapError_ok, bind, Except.bind, Except.map]
  · simpa [hc, Run.mapError_ok, bind, Except.bind, heq] using htools

/-! ## Updates -/

/-- When the programs of the host do not care for `sudo`, an update with it and the same update
without it go the same way. -/
theorem update_twins {programs : Programs} {w : World} (source : Path) (h : s.AgreeButSudo s')
    (hdry : s.dryRun = false) (hs : s.useSudo = .ok true) (hs' : s'.useSudo = .ok false)
    (hp : programs.IgnoresPrivilege w.journal.openLogs) :
    Outcome.Alike Eq (update source s none programs w).1 (update source s' none programs w).1 ∧
      w.Twins (update source s none programs w).2 (update source s' none programs w).2 := by
  obtain ⟨heq, htools⟩ := admission_eq_of_privilege h hdry hs hs' source w.host
  rw [update_eq_admission, update_eq_admission, heq]
  cases hj : admission w.host source s none with
  | error f => exact ⟨.error (.same f), .refl w⟩
  | ok j => exact Job.twins_carryOut hp (htools j hj) w w (.refl w)

/-- The command of a start without `sudo` before it. -/
def Start.plain (s : Start) : Start := { s with argv := unprivileged s.argv }

theorem plain_start (t : Tools) (c : Call) : (t.start c).plain = Tools.plainLive.start c := by
  have hplain : Tools.plainLive.argv c = c.words := ite_self _
  simp only [Start.plain, Tools.start, unprivileged_argv, hplain]

/-- The commands that need privileges, by their names. -/
def privilegedNames : List Text := ["mount", "umount", "mkdir", "cp"]

/-- The commands that need none. -/
def plainNames : List Text := ["mountpoint", "sync", "mmd", "mcopy"]

/-- `sudo` stands before the commands that need privileges, and before no other. -/
theorem Tools.argv_privilegedLive (c : Call) : ∃ name operands,
    (name ∈ privilegedNames ∧ privilegedLive.argv c = ("sudo" : Text) :: name :: operands) ∨
      (name ∈ plainNames ∧ privilegedLive.argv c = name :: operands) := by
  cases c with
  | mount _ _ | umount _ | mkdir _ | cp _ _ =>
    refine ⟨_, _, .inl ⟨?_, rfl⟩⟩
    simp [privilegedNames]
  | mountpoint _ | sync | mmd _ _ | mcopy _ _ _ =>
    refine ⟨_, _, .inr ⟨?_, rfl⟩⟩
    simp [plainNames]

theorem Tools.head?_argv_plainLive (c : Call) : (plainLive.argv c).head? ≠ some "sudo" := by
  cases c <;> exact fun h => absurd (Option.some.inj h) (by decide)

/-- With settings for a run that is not dry, and with programs that follow a script in which `sudo`
does not occur, `use_sudo` decides about the words of some commands only. The update ends with the
same result in both cases or with failures of one class, prints the same and leaves the same host,
apart from what is written to open logs. The commands that it starts are the same but for `sudo`,
which stands before the four commands that need privileges and before no other if `use_sudo` is
true, and before none if it is false. -/
theorem useSudo_changes_privilege_only {script : Script} {from_ : Nat} {w : World}
    (hscript : script.responses? Script.privilegeCommand = none) (hagree : s.AgreeButSudo s')
    (hdry : s.dryRun = false) (hs : s.useSudo = .ok true) (hs' : s'.useSudo = .ok false) :
    let run := update source s none (script.programs from_) w
    let run' := update source s' none (script.programs from_) w
    Outcome.Alike Eq run.1 run'.1 ∧
      Host.SameButLogs w.journal.openLogs run.2.host run'.2.host ∧
      ∃ added added', run.2.trace = w.trace ++ added ∧ run'.2.trace = w.trace ++ added' ∧
        outputOf added' = outputOf added ∧ startsOf added' = (startsOf added).map Start.plain ∧
        (∀ st ∈ startsOf added, ∃ name operands,
          (name ∈ privilegedNames ∧ st.argv = ("sudo" : Text) :: name :: operands) ∨
            (name ∈ plainNames ∧ st.argv = name :: operands)) ∧
        ∀ st ∈ startsOf added', st.argv.head? ≠ some "sudo" := by
  intro run run'
  have hp := Script.ignoresPrivilege hscript from_ w.journal.openLogs
  obtain ⟨hres, htwins⟩ := update_twins source hagree hdry hs hs' hp
  obtain ⟨added, added', ht, ht', hout, calls, hstarts, hstarts'⟩ := htwins.trace
  refine ⟨hres, htwins.host, added, added', ht, ht', hout, ?_, ?_, ?_⟩
  · rw [hstarts, hstarts', List.map_map]
    exact List.map_congr_left fun c _ => (plain_start _ c).symm
  · rw [hstarts, List.forall_mem_map]
    exact fun c _ => Tools.argv_privilegedLive c
  · rw [hstarts', List.forall_mem_map]
    exact fun c _ => Tools.head?_argv_plainLive c

/-- A copy that falls back to editing the image, because the mount does not last: `sudo` stands
before two of its six commands. -/
theorem useSudo_changes_privilege_only_fallback :
    let script : Script := [("mountpoint", [⟨[], .exits 1 "" ""⟩])]
    let settings (privileged : Bool) := Settings.ofEntries [(.text "use_sudo", .bool privileged)]
    let w := World.untouched .workbench
    let run (privileged : Bool) :=
      update (Path.ofString "app.bin") (settings privileged) none (script.programs 0) w
    let argvs (privileged : Bool) := (startsOf (run privileged).2.trace).map Start.argv
    let commands : List (List Text) := [["sudo", "mount", "disk.img", "mnt"],
      ["mountpoint", "-q", "mnt"], ["sudo", "umount", "mnt"], ["mountpoint", "-q", "mnt"],
      ["mmd", "-i", "disk.img", "::/sbin"],
      ["mcopy", "-i", "disk.img", "-o", "app.bin", "::/sbin/"]]
    script.responses? Script.privilegeCommand = none ∧
      (settings true).AgreeButSudo (settings false) ∧ (settings true).dryRun = false ∧
      (settings true).useSudo = .ok true ∧ (settings false).useSudo = .ok false ∧
      Outcome.Alike Eq (run true).1 (run false).1 ∧ (run false).2.host = (run true).2.host ∧
      outputOf (run false).2.trace = outputOf (run true).2.trace ∧
      argvs true = commands ∧ argvs false = commands.map unprivileged := by
  intro script settings w run argvs commands
  have hagree : (settings true).AgreeButSudo (settings false) := by
    intro key hkey
    simp only [List.mem_cons, List.not_mem_nil, or_false] at hkey
    rcases hkey with rfl | rfl | rfl | rfl <;> rfl
  have hscript : script.responses? Script.privilegeCommand = none := by decide +kernel
  obtain ⟨hres, hhost, added, added', ht, ht', hout, hstarts, -⟩ :=
    @useSudo_changes_privilege_only _ _ (Path.ofString "app.bin") _ 0 w hscript hagree rfl rfl rfl
  have htrace : (run true).2.trace = added := ht
  have htrace' : (run false).2.trace = added' := ht'
  have hcommands : argvs true = commands := by decide +kernel
  refine ⟨hscript, hagree, rfl, rfl, rfl, hres, Host.sameButLogs_nil.1 hhost, ?_, hcommands, ?_⟩
  · rw [htrace, htrace', hout]
  · rw [← hcommands]
    simp only [argvs, htrace, htrace', hstarts, List.map_map]
    rfl

end FatInstall
