import FatInstall.CommandLine.Given
import FatInstall.Fault

/-!
# The options of the command line

The table of options, what a finished command line says, and the texts about it: the usage, and
the help.
-/

namespace FatInstall.CommandLine

/-- The options. -/
inductive Opt
  | help
  | image
  | mountDir
  | destDir
  | config
  | noSudo
  | dryRun
  | log
  | verbose
  deriving DecidableEq, Repr

namespace Opt

/-- The options in the order in which they are listed. -/
def all : List Opt :=
  [help, image, mountDir, destDir, config, noSudo, dryRun, log, verbose]

/-- The long spelling of an option. -/
def long : Opt → String
  | help => "--help"
  | image => "--image"
  | mountDir => "--mount-dir"
  | destDir => "--dest-dir"
  | config => "--config"
  | noSudo => "--no-sudo"
  | dryRun => "--dry-run"
  | log => "--log"
  | verbose => "--verbose"

/-- The letter of the short spelling of an option. -/
def letter? : Opt → Option Char
  | help => some 'h'
  | verbose => some 'v'
  | _ => none

/-- Does the option take a value? -/
def takesValue : Opt → Bool
  | image | mountDir | destDir | config | log => true
  | _ => false

/-- The option as error messages name it. -/
def label (o : Opt) : String :=
  match o.letter? with
  | some c => s!"-{c}/{o.long}"
  | none => o.long

/-- The option with the given letter. -/
def ofLetter? (c : Char) : Option Opt := all.find? fun o => o.letter? == some c

end Opt

/-- What is wrong with a command line. -/
inductive Fault
  /-- An abbreviation of several options. -/
  | ambiguous (word : String) (options : List Opt)
  /-- An option that takes a value has none. -/
  | valueMissing (option : Opt)
  /-- An option that takes no value was given one. -/
  | valueIgnored (option : Opt) (value : String)
  /-- Words that are no options of the program, or files apart from the others. -/
  | unrecognized (words : List String)
  deriving DecidableEq, Repr

/-- The message of a fault. -/
def Fault.message : Fault → String
  | ambiguous word options =>
    s!"ambiguous option: {word} could match " ++ String.intercalate ", " (options.map Opt.long)
  | valueMissing option => s!"argument {option.label}: expected one argument"
  | valueIgnored option value =>
    s!"argument {option.label}: ignored explicit argument {Text.quoted value}"
  | unrecognized words => "unrecognized arguments: " ++ String.intercalate " " words

/-- Why the command line ends the program. -/
inductive Stop
  /-- The help was asked for. -/
  | help
  | fault (f : Fault)
  deriving DecidableEq, Repr

/-- What a command line says. -/
structure Options where
  files : List String := []
  image : Given := .absent
  mountDir : Given := .absent
  destDir : Given := .absent
  config : Given := .absent
  log : Given := .absent
  noSudo : Bool := false
  dryRun : Bool := false
  /-- How often more detail was asked for. -/
  verbose : Nat := 0
  deriving DecidableEq, Repr

/-- The options after a value was given; options without value stay as they are. -/
def Options.give (o : Options) (option : Opt) (value : Given) : Options :=
  match option with
  | .image => { o with image := value }
  | .mountDir => { o with mountDir := value }
  | .destDir => { o with destDir := value }
  | .config => { o with config := value }
  | .log => { o with log := value }
  | _ => o

/-- The options after one without value was named; the help stops the program. -/
def Options.name (o : Options) : Opt → Except Stop Options
  | .help => .error .help
  | .noSudo => .ok { o with noSudo := true }
  | .dryRun => .ok { o with dryRun := true }
  | .verbose => .ok { o with verbose := o.verbose + 1 }
  | _ => .ok o

/-- How to use the program. -/
def usage : String :=
  String.join
    ["usage: image-updater [-h] [--image IMAGE] [--mount-dir MOUNT_DIR]\n",
     "                     [--dest-dir DEST_DIR] [--config CONFIG] [--no-sudo]\n",
     "                     [--dry-run] [--log LOG] [-v]\n",
     "                     [FILE ...]\n"]

/-- The help. -/
def helpText : String :=
  usage ++ String.join
    ["\nCopy a file into /sbin of a FAT disk image\n",
     "\npositional arguments:\n",
     "  FILE                  File to copy into the image (exactly one)\n",
     "\noptions:\n",
     "  -h, --help            show this help message and exit\n",
     "  --image IMAGE         Disk image (default: ./disk.img)\n",
     "  --mount-dir MOUNT_DIR\n",
     "                        Scratch mount point (default: ./mnt)\n",
     "  --dest-dir DEST_DIR   Directory inside the image (default: /sbin)\n",
     "  --config CONFIG       YAML config file\n",
     "  --no-sudo             Run privileged commands without sudo\n",
     "  --dry-run             Log commands without running them\n",
     "  --log LOG             Also write the log to this file\n",
     "  -v, --verbose         -v for INFO, -vv for DEBUG\n"]

/-- The text about a fault: how to use the program, and what is wrong. -/
def faultText (f : Fault) : String := usage ++ s!"{programName}: error: {f.message}\n"

end FatInstall.CommandLine
