import FatInstall.Proofs.Acceptance
import FatInstall.Proofs.Statuses
import FatInstall.Proofs.Yaml.Unusable

/-!
# How settings files are rejected

A settings file that cannot be used is to be rejected with a failure of the program's own, which is
reported with a message and a status. Most are; the others end the program with the failure of the
host, or of the document, that was met.

* `Settings.Escapes`: the files that are not rejected so, each with its failure.
* `Settings.load_escapes_iff`: these are all, what can be wrong with their documents, and what comes
  of them and of the rejected ones in a run.
-/

namespace FatInstall

namespace Host

/-- Can the node be opened to read it? -/
def Node.isReadable : Node → Bool
  | .file _ _ | .device => true
  | _ => false

variable {h : Host} {p : Path} {n : Node}

/-- What can be opened is read. -/
theorem exists_read_of_node (hu : unspeakable? p = none) (hn : h.node true p = .ok n)
    (hopen : n.isReadable = true) : ∃ content, h.read p = .ok content := by
  cases n <;> simp [Node.isReadable, read, hu, hn] at hopen ⊢

/-- Anything else is refused as a directory. -/
theorem read_of_closed (hu : unspeakable? p = none) (hn : h.node true p = .ok n)
    (hclosed : n.isReadable = false) : h.read p = .error (.system .isDirectory p.text) := by
  cases n <;> simp [Node.isReadable, read, hu, hn] at hclosed ⊢

end Host

namespace Settings

/-- The failures, none of the program's own, in which loading a settings file ends. -/
inductive Escapes (read : String → Except Yaml.Fault Value) (path : String) (h : Host) :
    Failure → Prop
  /-- The path is too long to be followed. -/
  | tooLong (long : h.IsTooLong (.ofString path)) :
    Escapes read path h (.refused (.system .nameTooLong (Path.ofString path).text))
  /-- The path has the suffix of settings files, and leads to a directory. -/
  | directory {n : Host.Node} (suffix : Text.lower (Path.ofString path).suffix ∈ suffixes)
    (askable : Host.unspeakable? (.ofString path) = none)
    (found : h.node true (.ofString path) = .ok n) (closed : n.isReadable = false) :
    Escapes read path h (.refused (.system .isDirectory (Path.ofString path).text))
  /-- The bytes of the file are no text. -/
  | undecodable {content : List UInt8}
    (suffix : Text.lower (Path.ofString path).suffix ∈ suffixes)
    (found : h.read (.ofString path) = .ok content)
    (noText : String.fromUTF8? ⟨content.toArray⟩ = none) :
    Escapes read path h (.value .undecodable)
  /-- The document is well-formed and has no value. -/
  | unusable {content : List UInt8} {text : String} {v : ValueFault}
    (suffix : Text.lower (Path.ofString path).suffix ∈ suffixes)
    (found : h.read (.ofString path) = .ok content) (decoded : textOf content = .ok text)
    (noValue : read text = .error (.value v)) : Escapes read path h (.value v)
  /-- What the mapping says about `sudo` is no truth value, and cannot be shown in a message. -/
  | unshown {content : List UInt8} {text : String} {entries : List (Value × Value)} {u : Value}
    (suffix : Text.lower (Path.ofString path).suffix ∈ suffixes)
    (found : h.read (.ofString path) = .ok content) (decoded : textOf content = .ok text)
    (mapping : read text = .ok (.map entries))
    (entry : Value.lookup? (.text "use_sudo") entries = some u) (unclear : ¬u.IsTruthOrNull)
    (noText : u.shown? = none) : Escapes read path h (.value .noSuchValue)

variable {read : String → Except Yaml.Fault Value} {path : String} {h : Host} {f : Failure}

/-! ## The stages of loading -/

theorem loadBy_of_refused {why : Host.Refusal}
    (hexist : h.doesExist (.ofString path) = .error why) :
    loadBy read path h = .error (.refused why) := by
  simp [loadBy, hexist, Run.mapError_error, bind, Except.bind]

theorem loadBy_of_missing (hexist : h.doesExist (.ofString path) = .ok false) :
    loadBy read path h = .error (.update (.settingsMissing path)) := by
  simp [loadBy, hexist, Run.mapError_ok, bind, Except.bind]

theorem loadBy_of_suffix (hexist : h.doesExist (.ofString path) = .ok true)
    (hsuffix : Text.lower (Path.ofString path).suffix ∉ suffixes) :
    loadBy read path h = .error (.update .settingsNotYaml) := by
  simp [loadBy, hexist, hsuffix, Run.mapError_ok, bind, Except.bind]

theorem loadBy_of_unread {why : Host.Refusal} (hexist : h.doesExist (.ofString path) = .ok true)
    (hsuffix : Text.lower (Path.ofString path).suffix ∈ suffixes)
    (hread : h.read (.ofString path) = .error why) :
    loadBy read path h = .error (.refused why) := by
  simp [loadBy, hexist, hsuffix, hread, Run.mapError_ok, Run.mapError_error, bind, Except.bind]

theorem loadBy_of_content {content : List UInt8}
    (hsuffix : Text.lower (Path.ofString path).suffix ∈ suffixes)
    (hread : h.read (.ofString path) = .ok content) :
    loadBy read path h = textOf content >>= fun text =>
      (read text).mapError (failureOf path) >>= ofDocument path := by
  simp [loadBy, doesExist_of_read hread, hsuffix, hread, Run.mapError_ok, bind, Except.bind]

theorem loadBy_of_text {content : List UInt8} {text : String}
    (hsuffix : Text.lower (Path.ofString path).suffix ∈ suffixes)
    (hread : h.read (.ofString path) = .ok content) (htext : textOf content = .ok text) :
    loadBy read path h = (read text).mapError (failureOf path) >>= ofDocument path := by
  rw [loadBy_of_content hsuffix hread, htext]
  rfl

/-- The value of a document is rejected with a failure of the program's own, unless it is unclear
about `sudo` in a way that cannot be shown. -/
theorem ofDocument_unshown {v : Value} (hv : ofDocument path v = .error f)
    (hown : ∀ fault, f ≠ .update fault) :
    f = .value .noSuchValue ∧ ∃ entries u, v = .map entries ∧
      Value.lookup? (.text "use_sudo") entries = some u ∧ ¬u.IsTruthOrNull ∧ u.shown? = none := by
  by_cases hm : ∃ entries, v = .map entries
  · obtain ⟨entries, rfl⟩ := hm
    rw [ofDocument_map, useSudo] at hv
    cases hu : (⟨entries⟩ : Settings).get? "use_sudo" with
    | none =>
      rw [hu] at hv
      cases hv
    | some u =>
      rw [hu] at hv
      have hunclear : ¬u.IsTruthOrNull := fun hclear => by
        obtain ⟨b, hb⟩ := privilegeOf_isTruthOrNull hclear
        rw [hb] at hv
        cases hv
      rw [privilegeOf_of_not hunclear] at hv
      cases hshown : u.shown? with
      | some shown =>
        rw [hshown] at hv
        cases hv
        exact (hown _ rfl).elim
      | none =>
        rw [hshown] at hv
        cases hv
        exact ⟨rfl, entries, u, rfl, hu, hunclear, hshown⟩
  · rw [ofDocument_of_ne_map fun entries he => hm ⟨entries, he⟩] at hv
    split at hv
    · cases hv
      exact (hown _ rfl).elim
    · cases hv

/-! ## Which files are not rejected -/

/-- A file that is read is rejected with a failure of the program's own, or its content escapes. -/
theorem escapes_of_content {content : List UInt8}
    (hsuffix : Text.lower (Path.ofString path).suffix ∈ suffixes)
    (hread : h.read (.ofString path) = .ok content) (hload : loadBy read path h = .error f)
    (hown : ∀ fault, f ≠ .update fault) : Escapes read path h f := by
  cases htext : String.fromUTF8? ⟨content.toArray⟩ with
  | none =>
    rw [loadBy_of_content hsuffix hread, textOf, htext] at hload
    cases hload
    exact .undecodable hsuffix hread htext
  | some s =>
    obtain ⟨text, hdecoded⟩ : ∃ text, textOf content = .ok text := by simp [textOf, htext]
    rw [loadBy_of_text hsuffix hread hdecoded] at hload
    rcases hdocument : read text with (_ | v) | v <;> rw [hdocument] at hload
    · cases hload
      exact (hown _ rfl).elim
    · cases hload
      exact .unusable hsuffix hread hdecoded hdocument
    · obtain ⟨rfl, entries, u, rfl, hu, hunclear, hshown⟩ := ofDocument_unshown hload hown
      exact .unshown hsuffix hread hdecoded hdocument hu hunclear hshown

theorem escapes_of_load (hload : loadBy read path h = .error f)
    (hown : ∀ fault, f ≠ .update fault) : Escapes read path h f := by
  have hnot : ∀ {fault}, loadBy read path h ≠ .error (.update fault) := fun heq =>
    hown _ (Except.error.inj (hload.symm.trans heq))
  by_cases hlong : h.IsTooLong (.ofString path)
  · cases hload.symm.trans (loadBy_of_refused (Host.doesExist_of_isTooLong hlong))
    exact .tooLong hlong
  obtain ⟨hu, n, hn⟩ : Host.unspeakable? (.ofString path) = none ∧
      ∃ n, h.node true (.ofString path) = .ok n := by
    refine Classical.byContradiction fun hno => hnot (loadBy_of_missing ?_)
    exact Host.doesExist_of_not (fun hu n hn => hno ⟨hu, n, hn⟩) hlong
  have hexist := Host.doesExist_of_node hu hn
  have hsuffix : Text.lower (Path.ofString path).suffix ∈ suffixes :=
    Classical.byContradiction fun hsuffix => hnot (loadBy_of_suffix hexist hsuffix)
  cases hopen : n.isReadable with
  | true =>
    obtain ⟨content, hread⟩ := Host.exists_read_of_node hu hn hopen
    exact escapes_of_content hsuffix hread hload hown
  | false =>
    have hread := Host.read_of_closed hu hn hopen
    cases hload.symm.trans (loadBy_of_unread hexist hsuffix hread)
    exact .directory hsuffix hu hn hopen

theorem Escapes.loadBy (he : Escapes read path h f) :
    Settings.loadBy read path h = .error f ∧ ∀ fault, f ≠ .update fault := by
  cases he with
  | tooLong long => exact ⟨loadBy_of_refused (Host.doesExist_of_isTooLong long), nofun⟩
  | directory suffix askable found closed =>
    have hread := Host.read_of_closed askable found closed
    exact ⟨loadBy_of_unread (Host.doesExist_of_node askable found) suffix hread, nofun⟩
  | undecodable suffix found noText =>
    refine ⟨?_, nofun⟩
    rw [loadBy_of_content suffix found, textOf, noText]
    rfl
  | unusable suffix found decoded noValue =>
    refine ⟨?_, nofun⟩
    rw [loadBy_of_text suffix found decoded, noValue]
    rfl
  | @unshown content text entries u suffix found decoded mapping entry unclear noText =>
    refine ⟨?_, nofun⟩
    have hget : (⟨entries⟩ : Settings).get? "use_sudo" = some u := entry
    rw [loadBy_of_text suffix found decoded, mapping]
    show ofDocument path (.map entries) = _
    rw [ofDocument_map, useSudo, hget, privilegeOf_of_not unclear, noText]
    rfl

end Settings

/-! ## What comes of them -/

namespace Program

open CommandLine (Options)

variable {o : Options} {file path : String} {f : Failure} {programs : Programs} {w : World}

/-- Settings that cannot be loaded end what the command line asks for. -/
theorem perform_of_settings (tools : Option Tools) (hfiles : o.files = [file])
    (hs : namedSettings o w.host = .error f) : perform o tools programs w = (.error f, w) := by
  unfold perform
  rw [hfiles]
  exact Run.bind_of_error (settingsOf_eq.trans (congrArg (·, w) hs))

end Program

namespace Settings

open CommandLine (Options)

/-- Whatever reads documents, exactly the files that escape are not rejected with a failure of the
program's own. However many collections may be inside one another, a document that is well-formed
and has no value has tokens that show what is wrong, which is one of the faults of documents. In
every run that is given the settings file and one file to install, the failure of a file that
escapes leaves the program; a file that is rejected ends it with status 1, and with the message as
the last that is said. -/
theorem load_escapes_iff (path : String) (h : Host) :
    (∀ read f, (loadBy read path h = .error f ∧ ∀ fault, f ≠ .update fault) ↔
      Escapes read path h f) ∧
    (∀ room text v, Yaml.readWithin room text = .error (.value v) →
      Yaml.IsUnusable (.ofText room text.toList) v ∧ Yaml.IsDocumentFault v) ∧
    ∀ (words : List String) (o : Options) (file : String) (tools : Option Tools)
      (channel : Journal.Channel) (programs : Programs) (w w' : World) (log : Option Text),
      CommandLine.parse words = .ok o → o.files = [file] → o.config.word? = some path →
      Journal.configure o.log (Program.thresholdOf o.verbose) true programs w = (.ok log, w') →
      w'.host = h →
        let run := Program.run words tools channel programs w
        (∀ f, Escapes Yaml.read path h f → run.1 = .error f) ∧
        ∀ fault, load path h = .error (.update fault) → run.1 = .ok 1 ∧
          ∃ earlier, run.2.trace = earlier ++ [.complained (fault.message ++ "\n")] := by
  refine ⟨fun read f => ⟨fun hf => escapes_of_load hf.1 hf.2, Escapes.loadBy⟩,
    fun room text v hv => ?_, ?_⟩
  · have hunusable := Yaml.readWithin_unusable hv
    exact ⟨hunusable, hunusable.isDocumentFault⟩
  · intro words o file tools channel programs w w' log hparse hfiles hconfig hconf hhost run
    obtain ⟨hres, -, hmessage⟩ := Program.run_of_configured tools channel hparse hconf
    have hperform : ∀ {f}, load path h = .error f →
        Program.perform o tools programs w' = (.error f, w') := by
      intro f hf
      refine Program.perform_of_settings tools hfiles ?_
      simp only [Program.namedSettings, hconfig, hhost, hf]
    refine ⟨fun f hf => ?_, fun fault hf => ?_⟩
    · obtain ⟨hload, hown⟩ := hf.loadBy
      rw [hperform hload] at hres
      exact hres.trans (Program.report_of_ne (failsOnlyAs_load path h f hload).1 hown)
    · have hgeneral : fault.kind = .general := (failsOnlyAs_load path h _ hf).2 fault rfl
      have hstatus : fault.exitStatus = 1 := by
        rw [UpdateFault.exitStatus, hgeneral]
        rfl
      rw [hperform hf] at hres hmessage
      exact ⟨hres.trans (congrArg Except.ok hstatus), hmessage fault rfl⟩

/-- A word that is no truth value is said to be one, and so the program is left by a failure that
has no status. A list is rejected with status 1. -/
theorem load_escapes_iff_tagged :
    let text := "use_sudo: !!bool maybe"
    let words := ["--config", "c.yaml", "app.bin"]
    let o : Options := { files := ["app.bin"], config := .word "c.yaml" }
    let run (h : Host) := Program.run words none .program (Script.programs [] 0) (.untouched h)
    CommandLine.parse words = .ok o ∧ o.config.word? = some "c.yaml" ∧
      Yaml.read text = .error (.value (.unknownTruth "maybe")) ∧
      Yaml.IsUnusable (.ofText Yaml.usualRoom text.toList) (.unknownTruth "maybe") ∧
      load "c.yaml" (hostWith text) = .error (.value (.unknownTruth "maybe")) ∧
      Escapes Yaml.read "c.yaml" (hostWith text) (.value (.unknownTruth "maybe")) ∧
      (run (hostWith text)).1 = .error (.value (.unknownTruth "maybe")) ∧
      load "c.yaml" (hostWith "[no]") = .error (.update (.settingsNotMapping "c.yaml")) ∧
      (run (hostWith "[no]")).1 = .ok 1 := by
  intro text words o run
  have hparse : CommandLine.parse words = .ok o := eq_ok_of_toOption (by decide +kernel)
  have hread : Yaml.read text = .error (.value (.unknownTruth "maybe")) :=
    eq_error_of_errorOf (by decide +kernel)
  have hload : load "c.yaml" (hostWith text) = .error (.value (.unknownTruth "maybe")) :=
    eq_error_of_errorOf (by decide +kernel)
  have hlist : load "c.yaml" (hostWith "[no]") = .error (.update (.settingsNotMapping "c.yaml")) :=
    eq_error_of_errorOf (by decide +kernel)
  have hconf : ∀ h : Host, ∃ log w', Journal.configure o.log (Program.thresholdOf o.verbose) true
      (Script.programs [] 0) (.untouched h) = (.ok log, w') ∧ w'.host = h := by
    intro h
    have hlog : o.log.word? = none := rfl
    obtain ⟨log, w', hconf, hsilent⟩ := Journal.configure_silent hlog
      (Program.thresholdOf o.verbose) true (Script.programs [] 0) (.untouched h)
    exact ⟨log, w', hconf, (hsilent.untouched rfl).1⟩
  obtain ⟨hiff, hunusable, hruns⟩ := load_escapes_iff "c.yaml" (hostWith text)
  have hescapes := (hiff Yaml.read _).1 ⟨hload, nofun⟩
  obtain ⟨log, w', hconf₁, hhost₁⟩ := hconf (hostWith text)
  obtain ⟨log', w'', hconf₂, hhost₂⟩ := hconf (hostWith "[no]")
  have hleft := (hruns words o "app.bin" none .program _ _ w' log hparse rfl rfl hconf₁ hhost₁).1
  obtain ⟨-, -, hruns'⟩ := load_escapes_iff "c.yaml" (hostWith "[no]")
  have hrejected :=
    (hruns' words o "app.bin" none .program _ _ w'' log' hparse rfl rfl hconf₂ hhost₂).2
  exact ⟨hparse, rfl, hread, (hunusable Yaml.usualRoom text _ hread).1, hload, hescapes,
    hleft _ hescapes, hlist, (hrejected _ hlist).1⟩

/-- Neither a directory, nor bytes that are no text, nor a date that is not in the calendar is
rejected with a failure of the program's own. -/
theorem load_letsEscape :
    let at_ (n : Host.Node) : Host := ⟨⟨[(["c.yaml"], n)], 1⟩, []⟩
    load "c.yaml" (at_ .directory) = .error (.refused (.system .isDirectory "c.yaml")) ∧
      load "c.yaml" (at_ (.file 0 [0xff])) = .error (.value .undecodable) ∧
      load "c.yaml" (hostWith "built: 2020-13-45") = .error (.value .noSuchValue) := by
  intro at_
  exact ⟨eq_error_of_errorOf (by decide +kernel), eq_error_of_errorOf (by decide +kernel),
    eq_error_of_errorOf (by decide +kernel)⟩

end Settings

end FatInstall
