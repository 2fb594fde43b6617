import FatInstall.CommandLine.Options
import FatInstall.Text.Digit

/-!
# Reading the words of a command line

Each word is a file, an option, or the mark after which all words are files. Long options may be
shortened as long as only one fits, and may have their value in the same word after an equals
sign; options of one letter may share a dash. A word that starts with a dash is a file all the
same if it is a negative number or has a space in it and fits no option.

The files are one group: files elsewhere are reported as unrecognized.
-/

namespace FatInstall.CommandLine

/-- A word, read by itself. -/
inductive Item
  | file (word : String)
  /-- The mark after which all words are files. -/
  | endMark
  /-- An option, and the value in the same word. -/
  | option (option : Opt) (value : Option String) (isShort : Bool)
  /-- A word that looks like an option and is none. -/
  | unknown (word : String)
  deriving DecidableEq, Repr

/-- A row of decimal digits, of any script. -/
def isDigits (cs : List Char) : Bool := cs != [] && cs.all Text.isDecimalDigit

/-- Is the word a dash with a number after it? A line feed may end it. -/
def isNegativeNumber (cs : List Char) : Bool :=
  match cs with
  | '-' :: r =>
    let r := if r.getLast? = some '\n' then r.dropLast else r
    let fraction := (r.dropWhile Text.isDecimalDigit).drop 1
    isDigits r || (r.dropWhile Text.isDecimalDigit).head? == some '.' && isDigits fraction
  | _ => false

/-- The option that is spelled exactly so, and whether that is its short spelling. -/
def exactly? (word : List Char) : Option (Opt × Bool) :=
  (Opt.all.find? fun o => o.long.toList == word).map (·, false) <|>
  match word with
  | ['-', c] => (Opt.ofLetter? c).map (·, true)
  | _ => none

/-- The parts of a word before and after its first equals sign. -/
def splitValue (word : List Char) : List Char × Option (List Char) :=
  match word.dropWhile (· ≠ '=') with
  | [] => (word, none)
  | _ :: value => (word.takeWhile (· ≠ '='), some value)

/-- The options whose long spelling starts so. -/
def abbreviated (start : List Char) : List Opt :=
  Opt.all.filter fun o => start.isPrefixOf o.long.toList

/-- What a word is that fits no option. -/
def readOther (word : List Char) : Item :=
  if isNegativeNumber word || word.contains ' ' then .file (String.ofList word)
  else .unknown (String.ofList word)

/-- A word that starts with two dashes and is not spelled like any option. -/
def readLong (word : List Char) : Except Fault Item :=
  let (start, value) := splitValue word
  match abbreviated start with
  | [] => .ok (readOther word)
  | [o] => .ok (.option o (value.map String.ofList) false)
  | os => .error (.ambiguous (String.ofList word) os)

/-- A word that starts with one dash and is not spelled like any option. -/
def readShort (word : List Char) : Item :=
  match word with
  | '-' :: c :: r =>
    match Opt.ofLetter? c with
    | some o => .option o (some (String.ofList r)) true
    | none => readOther word
  | _ => readOther word

/-- One word by itself. -/
def readWord (word : List Char) : Except Fault Item :=
  if word.head? ≠ some '-' then .ok (.file (String.ofList word))
  else match exactly? word with
    | some (o, isShort) => .ok (.option o none isShort)
    | none =>
      if word.length = 1 then .ok (.file (String.ofList word))
      else match splitValue word with
        | (start, some value) =>
          match exactly? start with
          | some (o, isShort) => .ok (.option o (some (String.ofList value)) isShort)
          | none => if word.take 2 = ['-', '-'] then readLong word else .ok (readShort word)
        | (_, none) => if word.take 2 = ['-', '-'] then readLong word else .ok (readShort word)

/-- All words, up to the end mark each by itself. -/
def readWords : List String → Except Fault (List Item)
  | [] => .ok []
  | w :: ws =>
    if w = "--" then .ok (.endMark :: ws.map .file)
    else do
      let item ← readWord w.toList
      return item :: (← readWords ws)

/-- What was read so far. -/
structure Progress where
  options : Options
  /-- The group of files has been read. -/
  hasFiles : Bool
  /-- Words that belong nowhere. -/
  extra : List String
  deriving DecidableEq, Repr

/-- The word of a file or an end mark. -/
def Item.word : Item → String
  | file w | unknown w => w
  | endMark => "--"
  | option o _ _ => o.long

/-- Is it part of a group of files? -/
def Item.isFile : Item → Bool
  | file _ | endMark => true
  | _ => false

/-- The files of a group; its first end mark is not one of them. -/
def filesOf (group : List Item) : List String := (group.map Item.word).erase "--"

/-- Reads a group of files, the only one or one too many. -/
def Progress.takeFiles (p : Progress) (group : List Item) : Progress :=
  if group = [] then p
  else if p.hasFiles then { p with extra := p.extra ++ group.map Item.word }
  else { p with options := { p.options with files := filesOf group }, hasFiles := true }

/-- What was given, for a value in the same word. -/
def givenOf (value : String) : Given := if value = "--" then .nothing else .word value

/-- The options of one letter that share a dash, the first given apart. -/
def cluster (first : Opt) : List Char → Except Fault (List Opt)
  | [] => .ok [first]
  | c :: r =>
    match Opt.ofLetter? c with
    | some next => do return first :: (← cluster next r)
    | none => .error (.valueIgnored first (String.ofList (c :: r)))

/-- Reads an option without value. -/
def Progress.nameAll (p : Progress) (options : List Opt) : Except Stop Progress := do
  return { p with options := ← options.foldlM Options.name p.options }

/-- Reads an option that does not use the words after it. -/
def Progress.takeOption (p : Progress) (o : Opt) (value : Option String) (isShort : Bool) :
    Except Stop Progress :=
  match value with
  | none => p.nameAll [o]
  | some v =>
    if o.takesValue then .ok { p with options := p.options.give o (givenOf v) }
    else if isShort ∧ v ≠ "" then
      match cluster o v.toList with
      | .ok os => p.nameAll os
      | .error f => .error (.fault f)
    else .error (.fault (.valueIgnored o v))

/-- Reads the items from the first option on; `group` are the files just before them, the last
first. -/
def readItems (p : Progress) (group : List Item) : List Item → Except Stop Progress
  | [] => .ok (p.takeFiles group.reverse)
  | .file w :: rest => readItems p (.file w :: group) rest
  | .endMark :: rest => readItems p (.endMark :: group) rest
  | .unknown w :: rest =>
    let p := p.takeFiles group.reverse
    readItems { p with extra := p.extra ++ [w] } [] rest
  | .option o value isShort :: rest =>
    let p := p.takeFiles group.reverse
    if o.takesValue ∧ value = none then
      match rest with
      | .file w :: rest => readItems { p with options := p.options.give o (.word w) } [] rest
      | _ => .error (.fault (.valueMissing o))
    else do readItems (← p.takeOption o value isShort) [] rest

/-- What a command line says. -/
def parse (words : List String) : Except Stop Options :=
  match readWords words with
  | .error f => .error (.fault f)
  | .ok items => do
    let p ← readItems ⟨{}, false, []⟩ [] items
    if p.extra = [] then return p.options
    else .error (.fault (.unrecognized p.extra))

end FatInstall.CommandLine
