import FatInstall.Value.Text
import FatInstall.Fault

/-!
# Settings

The settings of an update are an ordered table of values. Five keys are read; others are kept and
have no meaning. A setting that counts as false gives way to its default.
-/

namespace FatInstall

/-- The settings: keys and values, in the order in which the keys were first set. -/
structure Settings where
  entries : List (Value × Value)
  deriving Repr, Inhabited

namespace Settings

/-- The settings without any entry. -/
def empty : Settings := ⟨[]⟩

/-- The settings with each of the entries set one after the other. -/
def ofEntries (entries : List (Value × Value)) : Settings := ⟨Value.setEntries [] entries⟩

/-- The value of a key. -/
def get? (s : Settings) (key : String) : Option Value := Value.lookup? (.text key) s.entries

/-- The value of a key, or the default if there is none or it counts as false. -/
def getOr (s : Settings) (key fallback : String) : Value :=
  match s.get? key with
  | some v => if v.isTrue then v else .text fallback
  | none => .text fallback

/-- The path that a value is. -/
def pathOf : Value → Except ValueFault Path
  | .text t => .ok (Path.ofText t)
  | .bytes _ => .error .bytesAsPath
  | v => .error (.notAPath v.kindName)

/-- The image. -/
def imagePath (s : Settings) : Except ValueFault Path := pathOf (s.getOr "image" "./disk.img")

/-- The scratch directory for a mount. -/
def mountDir (s : Settings) : Except ValueFault Path := pathOf (s.getOr "mount_dir" "./mnt")

/-- A directory inside the image, from its root and without slashes at its edges. -/
def rooted (dir : Text) : Text := "/" ++ Text.stripSlashes dir

/-- The directory inside the image. -/
def destDir (s : Settings) : Except ValueFault Text :=
  match (s.getOr "dest_dir" "/sbin").text? with
  | some dir => .ok (rooted dir)
  | none => .error .noSuchValue

/-- Whether a value says to use `sudo`; nothing says yes. -/
def privilegeOf : Option Value → Except Failure Bool
  | none | some .null => .ok true
  | some (.bool b) => .ok b
  | some v => match v.shown? with
    | some s => .error (.update (.privilegeUnclear s))
    | none => .error (.value .noSuchValue)

/-- Are privileged commands to be run through `sudo`? -/
def useSudo (s : Settings) : Except Failure Bool := privilegeOf (s.get? "use_sudo")

/-- Are commands to be written to the journal only? -/
def dryRun (s : Settings) : Bool := ((s.get? "dry_run").map Value.isTrue).getD false

/-- The name that no setting to be changed can have: it stands for the settings themselves. -/
def takenName : Text := "self"

/-- Changes by name. Every key must be a text, and none the taken name. -/
def namedChanges (changes : List (Value × Value)) : Except ValueFault (List (Text × Value)) := do
  let named ← changes.mapM fun c =>
    match c.1 with
    | .text name => .ok (name, c.2)
    | _ => .error .nameNotText
  if named.any fun c => c.1 = takenName then .error .nameTaken else .ok named

/-- The changes of settings that count: of several values for one name the last, unless that is
null. -/
def given (changes : List (Text × Value)) : List (Text × Value) :=
  (changes.foldl (fun cs c => Value.setEntryBy (· == ·) c.1 c.2 cs) []).filter fun c => !c.2.isNull

/-- The settings with the changes that count set one after the other. -/
def withOverrides (s : Settings) (changes : List (Text × Value)) : Settings :=
  ⟨Value.setEntries s.entries ((given changes).map fun c => (.text c.1, c.2))⟩

end Settings

end FatInstall
