import FatInstall.Host.Walk
import FatInstall.Host.Edit
import FatInstall.Settings.Basic
import FatInstall.Text.Line
import FatInstall.Text.Lower
import FatInstall.Yaml.Document

/-!
# Loading settings

A settings file is a document in UTF-8 whose name says so. Its value is a mapping, or nothing at
all; whether to use `sudo` must be clear from it.
-/

namespace FatInstall.Settings

/-- The suffixes of settings files, in small letters. -/
def suffixes : List Text := [".yaml", ".yml"]

/-- The settings that the value of a document gives. What counts as false gives none. -/
def ofDocument (path : String) (v : Value) : Except Failure Settings := do
  let settings ← match v with
    | .map entries => pure ⟨entries⟩
    | v => if v.isTrue then .error (.update (.settingsNotMapping path)) else pure empty
  let _ ← settings.useSudo
  return settings

/-- The failure that a fault of the document is. -/
def failureOf (path : String) : Yaml.Fault → Failure
  | .malformed => .update (.settingsMalformed path)
  | .value f => .value f

/-- The text of a file, with all line ends made one. -/
def textOf (content : List UInt8) : Except Failure String :=
  match String.fromUTF8? ⟨content.toArray⟩ with
  | some s => .ok (String.ofList (Text.unifyLineEnds s.toList))
  | none => .error (.value .undecodable)

/-- Loads the settings of a file with a reader of documents. -/
def loadBy (read : String → Except Yaml.Fault Value) (path : String) (h : Host) :
    Except Failure Settings := do
  let p := Path.ofString path
  if !(← (h.doesExist p).mapError Failure.refused) then
    .error (.update (.settingsMissing path))
  if !suffixes.contains (Text.lower p.suffix) then .error (.update .settingsNotYaml)
  let text ← textOf (← (h.read p).mapError Failure.refused)
  ofDocument path (← (read text).mapError (failureOf path))

/-- Loads the settings of a file. -/
def load (path : String) (h : Host) : Except Failure Settings := loadBy Yaml.read path h

end FatInstall.Settings
