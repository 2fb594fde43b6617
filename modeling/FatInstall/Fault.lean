import FatInstall.Command.Fault
import FatInstall.Host.Error
import FatInstall.Path

/-!
# What can go wrong

Failures of the program's own are reported with a message and an exit status of their kind. All
other failures are listed beside them in `Failure`: a run ends with a result or with one of these.
-/

namespace FatInstall

/-- The name of the program. -/
def programName : String := "image-updater"

/-- The kinds of failure that end the program with a status of their own. -/
inductive FaultKind
  | general
  | usage
  | sourceMissing
  | imageMissing
  | offlineWrite
  | mountedWrite
  /-- The image cannot be mounted here; the offline way is taken instead. -/
  | mountUnavailable
  deriving DecidableEq, Repr

/-- The exit status of a kind of failure. -/
def FaultKind.exitStatus : FaultKind → Nat
  | .general | .mountUnavailable => 1
  | .usage => 2
  | .sourceMissing => 3
  | .imageMissing => 4
  | .offlineWrite => 5
  | .mountedWrite => 6

/-- A failure of the program's own. -/
inductive UpdateFault
  /-- Not exactly one file was named. -/
  | usage
  | settingsMissing (path : String)
  | settingsNotYaml
  | settingsMalformed (path : String)
  | settingsNotMapping (path : String)
  /-- Whether to use `sudo` is given by something that is no truth value. -/
  | privilegeUnclear (shown : String)
  | sourceMissing (source : Path)
  | imageMissing (image : Path)
  | scratchRefused (mountDir : Path) (why : Host.Refusal)
  | mountFailed (image mountDir : Path)
  | mountInactive (mountDir : Path)
  | mountedCopyFailed (source image : Path) (why : CommandFault)
  | unmountFailed (mountDir image : Path)
  | mountedAfterUnmount (mountDir : Path)
  | mountedBeforeEdit (mountDir image : Path)
  | offlineCopyFailed (source image : Path) (why : CommandFault)
  deriving DecidableEq, Repr

namespace UpdateFault

/-- The kind of a failure. -/
def kind : UpdateFault → FaultKind
  | usage => .usage
  | settingsMissing _ | settingsNotYaml | settingsMalformed _ | settingsNotMapping _
  | privilegeUnclear _ => .general
  | sourceMissing _ => .sourceMissing
  | imageMissing _ => .imageMissing
  | scratchRefused _ _ | mountFailed _ _ | mountInactive _ => .mountUnavailable
  | mountedCopyFailed _ _ _ | unmountFailed _ _ | mountedAfterUnmount _ => .mountedWrite
  | mountedBeforeEdit _ _ | offlineCopyFailed _ _ _ => .offlineWrite

/-- The message of a failure. -/
def message : UpdateFault → Text
  | usage => s!"Usage: {programName} [userapp path]"
  | settingsMissing path => s!"Config file '{path}' doesn't exist!"
  | settingsNotYaml => "config must be YAML"
  | settingsMalformed path => s!"Invalid YAML in {path}: the text is not one well-formed document"
  | settingsNotMapping path => s!"{path} must contain a mapping/object"
  | privilegeUnclear shown => s!"use_sudo must be true or false, got {shown}"
  | sourceMissing source => "File '" ++ source.text ++ "' doesn't exist!"
  | imageMissing image => image.text ++ " doesn't exist! Please 'make disk_img'"
  | scratchRefused mountDir why =>
    "cannot create scratch dir " ++ mountDir.text ++ s!": {why.message}"
  | mountFailed image mountDir => "mount of " ++ image.text ++ " on " ++ mountDir.text ++ " failed"
  | mountInactive mountDir => mountDir.text ++ " is not an active mountpoint after mount"
  | mountedCopyFailed source image why | offlineCopyFailed source image why =>
    "Failed to copy '" ++ source.text ++ "' into " ++ image.text ++ ": " ++ why.message
  | unmountFailed mountDir image =>
    "Failed to unmount " ++ mountDir.text ++ "; " ++ image.text ++ " may be inconsistent"
  | mountedAfterUnmount mountDir => mountDir.text ++ " is still mounted after unmount"
  | mountedBeforeEdit mountDir image =>
    mountDir.text ++ " is still mounted; refusing to edit " ++ image.text ++ " offline"

/-- The exit status of a failure. -/
def exitStatus (f : UpdateFault) : Nat := f.kind.exitStatus

end UpdateFault

/-- What makes a value or a scalar unusable, beside the failures of the program's own. -/
inductive ValueFault
  /-- Bytes that are no UTF-8 text. -/
  | undecodable
  /-- A number, a date or a character that there is not, or that has too many digits. -/
  | noSuchValue
  /-- A value of the named kind stands where a path belongs. -/
  | notAPath (kind : String)
  /-- Bytes stand where a path belongs. -/
  | bytesAsPath
  /-- A word that is no truth value, said to be one. -/
  | unknownTruth (word : Text)
  /-- A scalar without digits, said to be a number. -/
  | emptyNumber
  /-- A scalar that is no date, said to be one. -/
  | notADate
  /-- A mapping, said to be a date. -/
  | mappingAsDate
  /-- The number of a character is too large for a machine word. -/
  | characterTooLarge
  /-- A scale of base sixty is too large for a double. -/
  | scaleTooLarge
  /-- The name of a setting that is to be changed is no text. -/
  | nameNotText
  /-- The name of a setting that is to be changed is the one of the settings themselves. -/
  | nameTaken
  /-- Collections are nested too deep, or a default value is its own default value. -/
  | tooDeep
  deriving DecidableEq, Repr

/-- The message of an unusable value. -/
def ValueFault.message : ValueFault → String
  | undecodable => "the bytes are not UTF-8"
  | noSuchValue => "there is no such value"
  | notAPath kind => s!"expected str, bytes or os.PathLike object, not {kind}"
  | bytesAsPath =>
    "argument should be a str object or an os.PathLike object returning str, not <class 'bytes'>"
  | unknownTruth word => Text.quoted word
  | emptyNumber => "string index out of range"
  | notADate => "'NoneType' object has no attribute 'groupdict'"
  | mappingAsDate => "expected string or bytes-like object, got 'list'"
  | characterTooLarge => "Python int too large to convert to C int"
  | scaleTooLarge => "int too large to convert to float"
  | nameNotText => "keywords must be strings"
  | nameTaken => "UpdaterConfig.with_overrides() got multiple values for argument 'self'"
  | tooDeep => "maximum recursion depth exceeded"

/-- How a run ends without a result. -/
inductive Failure
  /-- A failure of the program's own. -/
  | update (fault : UpdateFault)
  /-- A command that was to succeed failed. -/
  | command (fault : CommandFault)
  /-- The host refused an operation. -/
  | refused (why : Host.Refusal)
  /-- A value is unusable. -/
  | value (fault : ValueFault)
  /-- A command without words was to be started. -/
  | emptyCommand
  /-- The command line asked to end with this status. -/
  | exit (status : Nat)
  /-- The user interrupted the program. -/
  | interrupted
  deriving DecidableEq, Repr

/-- The message of a failure. -/
def Failure.message : Failure → Text
  | update fault => fault.message
  | command fault => fault.message
  | refused why => why.message
  | value fault => fault.message
  | emptyCommand => "list index out of range"
  | exit status => toString status
  | interrupted => ""

end FatInstall
