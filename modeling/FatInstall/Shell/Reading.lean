import FatInstall.Shell.Grammar

/-!
# Looking at what is next

The steps that the reader of scripts is made of: what is next in the text, and whether it is what
is expected.

This serves runs of real processes only (`World.Processes`).
-/

namespace FatInstall.Shell

/-- What is wrong with a script. -/
inductive ReadFault
  | unterminatedQuote
  /-- An opening brace or bracket of an expansion is not closed. -/
  | missing (sign : String)
  /-- Something stands where it cannot, and perhaps one thing is expected instead. -/
  | unexpected (found : String) (expected : Option String)
  /-- The script is nested too deep. -/
  | tooDeep
  deriving DecidableEq, Repr

/-- The message of a fault. -/
def ReadFault.message : ReadFault → String
  | unterminatedQuote => "Syntax error: Unterminated quoted string"
  | missing sign => s!"Syntax error: Missing '{sign}'"
  | unexpected found none => s!"Syntax error: {found} unexpected"
  | unexpected found (some e) => s!"Syntax error: {found} unexpected (expecting {e})"
  | tooDeep => "Syntax error: too deep"

namespace Reader

/-- A step of reading. -/
abbrev Reading (α : Type) := StateT (List Char) (Except ReadFault) α

/-- What the text that is read stands between. -/
inductive Mode
  /-- A word. -/
  | word
  /-- Double quotes. -/
  | quotes
  /-- The braces of a substitution, inside or outside quotes. -/
  | braces (inQuotes : Bool)
  /-- The brackets of an arithmetic expression. -/
  | arithmetic
  /-- The lines of a text in the script. -/
  | document
  deriving DecidableEq, Repr

/-- Does the character end a word? -/
def endsWord (c : Char) : Bool := " \t\n;&|<>()".toList.contains c

/-- Can a name start with the character? -/
def startsName (c : Char) : Bool := c.isAlpha || c == '_'

/-- Can the character stand in a name? -/
def isNameChar (c : Char) : Bool := c.isAlphanum || c == '_'

/-- Does the character name a parameter of its own? -/
def isSpecialName (c : Char) : Bool := "@*#?-$!0123456789".toList.contains c

/-- Reads the characters of the class. -/
def takeWhile (p : Char → Bool) : Reading String := do
  let cs ← get
  set (cs.dropWhile p)
  return String.ofList (cs.takeWhile p)

/-- The next character. -/
def peek : Reading (Option Char) := do return (← get).head?

/-- Drops the next characters. -/
def drop (n : Nat) : Reading Unit := modify (·.drop n)

/-- Drops the text if it is next, and says whether it was. -/
def dropIf (s : String) : Reading Bool := do
  let cs ← get
  if s.toList.isPrefixOf cs then
    set (cs.drop s.length)
    return true
  else return false

/-- Is the mode one in which quotes stand for themselves? -/
def Mode.isQuoted : Mode → Bool
  | word | braces false => false
  | _ => true

/-- May the character be escaped in the mode? -/
def Mode.escapes (m : Mode) (c : Char) : Bool :=
  !m.isQuoted || "$`\\\n".toList.contains c || (m == .quotes && c == '"') ||
    (m == .braces true && (c == '\x7d' || c == '"'))

/-- Does the character end the text of the mode? -/
def Mode.endsAt (m : Mode) (c : Char) : Bool :=
  match m with
  | word => endsWord c
  | quotes => c == '"'
  | braces _ => c == '\x7d'
  | arithmetic | document => false

/-- Text that stands for itself in the mode. -/
def Mode.text (m : Mode) (s : String) : Part := if m.isQuoted then .literal s else .plain s

/-- Is the character nothing but itself in the mode? -/
def Mode.isOrdinary (m : Mode) (c : Char) : Bool :=
  !(m.endsAt c || "\\$`".toList.contains c || (!m.isQuoted && (c == '\'' || c == '"')) ||
    (m == .braces true && c == '"') || (m == .arithmetic && (c == '(' || c == ')')))

/-- The text of a backquoted script, with its escapes taken away. -/
def backquoted : Nat → List Char → Reading (List Char)
  | 0, _ => throw .tooDeep
  | fuel + 1, done => do
    match ← get with
    | [] => throw .unterminatedQuote
    | '`' :: r =>
      set r
      return done.reverse
    | '\\' :: c :: r =>
      set r
      if "$`\\".toList.contains c then backquoted fuel (c :: done)
      else backquoted fuel (c :: '\\' :: done)
    | c :: r =>
      set r
      backquoted fuel (c :: done)

/-- The name of a variable or a parameter. -/
def name : Reading String := do
  match ← peek with
  | some c =>
    if startsName c then takeWhile isNameChar
    else if isSpecialName c then
      drop 1
      return c.toString
    else return ""
  | none => return ""

/-- The rule of a substitution, from the signs after the name. -/
def rule : Reading (Option (Substitute × Bool)) := do
  let orEmpty ← dropIf ":"
  match ← peek with
  | some '-' =>
    drop 1
    return some (.fallback, orEmpty)
  | some '=' =>
    drop 1
    return some (.assigned, orEmpty)
  | some '+' =>
    drop 1
    return some (.instead, orEmpty)
  | some '?' =>
    drop 1
    return some (.required, orEmpty)
  | some '#' =>
    if ← dropIf "##" then return some (.withoutStart true, false)
    drop 1
    return some (.withoutStart false, false)
  | some '%' =>
    if ← dropIf "%%" then return some (.withoutEnd true, false)
    drop 1
    return some (.withoutEnd false, false)
  | _ => return none

/-- Skips blanks and comments up to the end of the line. -/
def skipBlanks : Nat → Reading Unit
  | 0 => return ()
  | fuel + 1 => do
    let _ ← takeWhile fun c => c == ' ' || c == '\t'
    if ← dropIf "\\\n" then skipBlanks fuel
    else if (← peek) = some '#' then
      let _ ← takeWhile (· != '\n')

/-- Skips blanks, comments and line ends. -/
def skipLines : Nat → Reading Unit
  | 0 => return ()
  | fuel + 1 => do
    skipBlanks fuel
    if ← dropIf "\n" then skipLines fuel

/-- The lines of a text in the script, up to the line that ends it. -/
def documentLines (ending : List Char) (dropTabs : Bool) :
    Nat → List Char → List Char → List Char × List Char
  | 0, done, cs => (done, cs)
  | fuel + 1, done, cs =>
    let line := cs.takeWhile (· ≠ '\n')
    let line := if dropTabs then line.dropWhile (· == '\t') else line
    let rest := cs.dropWhile (· ≠ '\n')
    if cs = [] then (done, [])
    else if line = ending then (done, rest.drop 1)
    else documentLines ending dropTabs fuel (done ++ line ++ ['\n']) (rest.drop 1)

/-- The text of parts that hold nothing to put in. -/
def plainText : List Part → String
  | [] => ""
  | .plain s :: r | .literal s :: r => s ++ plainText r
  | _ :: r => plainText r

/-- Is a part quoted? -/
def isQuotedWord (parts : List Part) : Bool :=
  parts.any fun
    | .plain _ => false
    | _ => true

/-- The words that mean something at the start of a command. -/
def reserved : List String :=
  ["if", "then", "elif", "else", "fi", "while", "until", "do", "done", "for", "in", "case",
    "esac", "\x7b", "\x7d", "!"]

/-- The word that is next, if it is made of plain characters, without reading it. -/
def nextWord : Reading String := do
  return String.ofList ((← get).takeWhile fun c => !endsWord c)

/-- Drops the reserved word if it is next. -/
def dropWord (w : String) : Reading Bool := do
  if (← nextWord) = w then
    drop w.length
    return true
  else return false

/-- How a message names what is next. -/
def found : Reading String := do
  match ← get with
  | [] => return "end of file"
  | '\n' :: _ => return "newline"
  | ';' :: ';' :: _ => return "\";;\""
  | '&' :: '&' :: _ => return "\"&&\""
  | '|' :: '|' :: _ => return "\"||\""
  | c :: _ =>
    if ";&|()".toList.contains c then return "\"" ++ c.toString ++ "\""
    else if c = '<' ∨ c = '>' then return "redirection"
    else
      let w ← nextWord
      return if reserved.contains w then "\"" ++ w ++ "\"" else "word"

/-- Refuses what is next. -/
def refuse {α : Type} (expected : Option String) : Reading α := do
  throw (.unexpected (← found) expected)

/-- Drops the reserved word, which must be next. -/
def expectWord (w : String) : Reading Unit := do
  if !(← dropWord w) then refuse (some ("\"" ++ w ++ "\""))

/-- Drops the sign, which must be next. -/
def expectSign (s : String) : Reading Unit := do
  if !(← dropIf s) then refuse (some ("\"" ++ s ++ "\""))

/-- The number of the stream and the sign of a redirection, if one is next. -/
def redirectSign : Reading (Option (Nat × String)) := do
  let cs ← get
  let digits := cs.takeWhile Char.isDigit
  let rest := cs.drop digits.length
  let signs := ["<<-", "<<", "<&", "<>", "<", ">>", ">&", ">|", ">"]
  match decide (digits.length ≤ 1), signs.find? fun s => s.toList.isPrefixOf rest with
  | true, some sign =>
    set (rest.drop sign.length)
    let usual := if sign.startsWith "<" then 0 else 1
    return some ((digits.head?.map fun d => d.toNat - '0'.toNat).getD usual, sign)
  | _, _ => return none

/-- The name and the rest of a word that sets a variable. -/
def setting? : List Part → Option (String × List Part)
  | .plain s :: r =>
    let before := s.toList.takeWhile (· ≠ '=')
    match s.toList.dropWhile (· ≠ '='), before with
    | _ :: after, c :: cs =>
      if startsName c && cs.all isNameChar then
        some (String.ofList before, if after = [] then r else .plain (String.ofList after) :: r)
      else none
    | _, _ => none
  | _ => none

/-- Can a command start with what is next? -/
def startsCommand : Reading Bool := do
  match ← get with
  | [] => return false
  | c :: _ =>
    if "\n;&|)".toList.contains c then return false
    let closing := ["then", "elif", "else", "fi", "do", "done", "esac", "\x7d"]
    return !closing.contains (← nextWord)

end Reader

end FatInstall.Shell
