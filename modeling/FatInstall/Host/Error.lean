import FatInstall.Text.Quoted

/-!
# Refusals of the host

The operating system refuses an operation for one of a few causes; each has a number and a text,
and the refusal names the path it is about.
-/

namespace FatInstall.Host

/-- Why the host refuses. -/
inductive Cause
  /-- Nothing stands there. -/
  | missing
  /-- The program may not do this. -/
  | denied
  /-- The place is in use as a mount or as the root. -/
  | busy
  /-- Something stands there already. -/
  | present
  /-- A step of the path leads through something that is no directory. -/
  | notDirectory
  /-- The path names a directory. -/
  | isDirectory
  /-- The path does not make sense for the operation. -/
  | invalid
  /-- A name or the whole path is too long. -/
  | nameTooLong
  /-- The directory has entries. -/
  | notEmpty
  /-- Too many links on the way. -/
  | linkLoop
  deriving DecidableEq, Repr

/-- The number of a cause. -/
def Cause.number : Cause → Nat
  | .missing => 2
  | .denied => 13
  | .busy => 16
  | .present => 17
  | .notDirectory => 20
  | .isDirectory => 21
  | .invalid => 22
  | .nameTooLong => 36
  | .notEmpty => 39
  | .linkLoop => 40

/-- The text of a cause. -/
def Cause.text : Cause → String
  | .missing => "No such file or directory"
  | .denied => "Permission denied"
  | .busy => "Device or resource busy"
  | .present => "File exists"
  | .notDirectory => "Not a directory"
  | .isDirectory => "Is a directory"
  | .invalid => "Invalid argument"
  | .nameTooLong => "File name too long"
  | .notEmpty => "Directory not empty"
  | .linkLoop => "Too many levels of symbolic links"

/-- A refusal. -/
inductive Refusal
  /-- The operation on the path was refused by the system. -/
  | system (cause : Cause) (path : Text)
  /-- A link was to be removed as if it were the directory it leads to. -/
  | treeIsLink
  /-- The path holds a character that no path can hold. -/
  | nulInPath
  /-- The path has no form in bytes. -/
  | notEncodable
  deriving DecidableEq, Repr

/-- Does the refusal come from the system, which was asked and said no? -/
def Refusal.isBySystem : Refusal → Bool
  | .system _ _ | .treeIsLink => true
  | .nulInPath | .notEncodable => false

/-- The message of a refusal. -/
def Refusal.message : Refusal → String
  | .system cause path => s!"[Errno {cause.number}] {cause.text}: {Text.quoted path}"
  | .treeIsLink => "Cannot call rmtree on a symbolic link"
  | .nulInPath => "embedded null byte"
  | .notEncodable => "surrogates not allowed"

end FatInstall.Host
