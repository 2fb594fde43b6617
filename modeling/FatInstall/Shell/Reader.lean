import FatInstall.Shell.Reading

/-!
# Reading scripts

A script is read line by line: a line that cannot be read stops the shell when it is reached, and
the lines before it are run.

This serves runs of real processes only (`World.Processes`).
-/

namespace FatInstall.Shell

namespace Reader

mutual

/-- The parts of the text up to its end. -/
def parts : Nat → Mode → Nat → Reading (List Part)
  | 0, _, _ => throw .tooDeep
  | fuel + 1, mode, depth => do
    match ← get with
    | [] => return []
    | c :: r =>
      if mode.endsAt c then return []
      let ordinary ← takeWhile mode.isOrdinary
      if ordinary ≠ "" then return mode.text ordinary :: (← parts fuel mode depth)
      drop 1
      if c = '\\' then
        match r with
        | [] => return [mode.text "\\"]
        | d :: _ =>
          if d = '\n' && mode.escapes d then
            drop 1
            parts fuel mode depth
          else if mode.escapes d then
            drop 1
            return .literal d.toString :: (← parts fuel mode depth)
          else return mode.text "\\" :: (← parts fuel mode depth)
      else if c = '\'' then
        let s ← takeWhile (· != '\'')
        if !(← dropIf "'") then throw .unterminatedQuote
        return .literal s :: (← parts fuel mode depth)
      else if c = '"' then
        let inner ← parts fuel .quotes 0
        if !(← dropIf "\"") then throw .unterminatedQuote
        return .quoted inner :: (← parts fuel mode depth)
      else if c = '`' then
        let inner ← backquoted fuel []
        let rest ← get
        set inner
        let script ← commands fuel
        if (← get) ≠ [] then refuse none
        set rest
        return .output script :: (← parts fuel mode depth)
      else if c = '(' then return mode.text "(" :: (← parts fuel mode (depth + 1))
      else if c = ')' then
        if depth = 0 then
          modify (')' :: ·)
          return []
        else return mode.text ")" :: (← parts fuel mode (depth - 1))
      else
        let p ← expansion fuel mode
        return p :: (← parts fuel mode depth)

/-- What follows a dollar sign. -/
def expansion : Nat → Mode → Reading Part
  | 0, _ => throw .tooDeep
  | fuel + 1, mode => do
    if ← dropIf "((" then
      let inner ← parts fuel .arithmetic 0
      if !(← dropIf "))") then throw (.missing "))")
      return .number inner
    else if ← dropIf "(" then
      let script ← commands fuel
      expectSign ")"
      return .output script
    else if ← dropIf "\x7b" then
      match ← get with
      | '#' :: '\x7d' :: r =>
        set r
        return .value "#"
      | '#' :: c :: _ =>
        if startsName c || isSpecialName c then
          drop 1
          let n ← name
          if !(← dropIf "\x7d") then throw (.missing "\x7d")
          return .length n
      | _ => pure ()
      let n ← if ((← get).head?.map Char.isDigit).getD false then takeWhile Char.isDigit else name
      if ← dropIf "\x7d" then return .value n
      let r ← rule
      let inner ← parts fuel (.braces mode.isQuoted) 0
      if !(← dropIf "\x7d") then throw (.missing "\x7d")
      match r with
      | some (rule, orEmpty) => return .substitute n rule orEmpty inner
      | none => return .substitute "" .required false inner
    else
      let n ← name
      return if n = "" then mode.text "$" else .value n

/-- A redirection, after its sign. -/
def redirect : Nat → Nat → String → Reading Redirect
  | 0, _, _ => throw .tooDeep
  | fuel + 1, stream, sign => do
    skipBlanks fuel
    let target ← parts fuel .word 0
    if target.isEmpty then refuse none
    if sign = "<<" || sign = "<<-" then
      let ending := plainText (target.flatMap fun
        | .quoted ps => ps
        | p => [p])
      let cs ← get
      let line := cs.takeWhile (· ≠ '\n')
      let below := (cs.drop line.length).drop 1
      let (body, rest) :=
        documentLines ending.toList (sign == "<<-") (below.length + 1) [] below
      if isQuotedWord target then
        set (line ++ '\n' :: rest)
        return ⟨stream, .document, [.literal (String.ofList body)]⟩
      else
        set body
        let inner ← parts fuel .document 0
        set (line ++ '\n' :: rest)
        return ⟨stream, .document, [.quoted inner]⟩
    else
      let kind : Redirection :=
        if sign = "<" || sign = "<>" then .input
        else if sign = ">>" then .append
        else if sign = ">&" || sign = "<&" then .duplicate
        else .output
      return ⟨stream, kind, target⟩

/-- Redirections after a command. -/
def redirects : Nat → Reading (List Redirect)
  | 0 => throw .tooDeep
  | fuel + 1 => do
    skipBlanks fuel
    match ← redirectSign with
    | some (stream, sign) =>
      let r ← redirect fuel stream sign
      return r :: (← redirects fuel)
    | none => return []

/-- The words and redirections of a simple command. -/
def simple : Nat → List (String × List Part) → List (List Part) → List Redirect →
    Reading Command
  | 0, _, _, _ => throw .tooDeep
  | fuel + 1, settings, words, rs => do
    skipBlanks fuel
    if let some (stream, sign) ← redirectSign then
      let r ← redirect fuel stream sign
      simple fuel settings words (rs ++ [r])
    else
      let w ← parts fuel .word 0
      if w.isEmpty then
        if words.isEmpty && settings.isEmpty && rs.isEmpty then refuse none
        return .simple settings words rs
      else if words.isEmpty then
        match setting? w with
        | some s => simple fuel (settings ++ [s]) words rs
        | none => simple fuel settings [w] rs
      else simple fuel settings (words ++ [w]) rs

/-- Words up to the end of the command. -/
def wordList : Nat → Reading (List (List Part))
  | 0 => throw .tooDeep
  | fuel + 1 => do
    skipBlanks fuel
    let w ← parts fuel .word 0
    if w.isEmpty then return []
    return w :: (← wordList fuel)

/-- A command that is no list and no pipe. -/
def command : Nat → Reading Command
  | 0 => throw .tooDeep
  | fuel + 1 => do
    skipBlanks fuel
    if ← dropIf "(" then
      let body ← commands fuel
      expectSign ")"
      return .subshell body (← redirects fuel)
    match ← nextWord with
    | "\x7b" =>
      drop 1
      let body ← commands fuel
      expectWord "\x7d"
      return .group body (← redirects fuel)
    | "if" =>
      drop 2
      let test ← commands fuel
      expectWord "then"
      let body ← commands fuel
      let (more, otherwise) ← branches fuel
      return .conditional ((test, body) :: more) otherwise (← redirects fuel)
    | "while" =>
      drop 5
      let test ← commands fuel
      let body ← loopBody fuel
      return .loop true test body (← redirects fuel)
    | "until" =>
      drop 5
      let test ← commands fuel
      let body ← loopBody fuel
      return .loop false test body (← redirects fuel)
    | "for" =>
      drop 3
      skipBlanks fuel
      let n ← takeWhile isNameChar
      skipLines fuel
      let words ← if ← dropWord "in" then some <$> wordList fuel else pure none
      skipBlanks fuel
      let _ ← dropIf ";"
      skipLines fuel
      let body ← loopBody fuel
      return .each n words body (← redirects fuel)
    | "case" =>
      drop 4
      skipBlanks fuel
      let word ← parts fuel .word 0
      skipLines fuel
      expectWord "in"
      let arms ← caseArms fuel
      return .select word arms (← redirects fuel)
    | w =>
      if reserved.contains w then refuse none
      let n := w.toList.takeWhile isNameChar
      if String.ofList n = w && n ≠ [] && ((← get).drop n.length).take 2 == ['(', ')'] then
        drop (n.length + 2)
        skipLines fuel
        return .define w (← command fuel)
      else simple fuel [] [] []

/-- The body of a loop. -/
def loopBody : Nat → Reading (List Command)
  | 0 => throw .tooDeep
  | fuel + 1 => do
    expectWord "do"
    let body ← commands fuel
    expectWord "done"
    return body

/-- The further branches of a conditional command, and its end. -/
def branches : Nat → Reading (List (List Command × List Command) × List Command)
  | 0 => throw .tooDeep
  | fuel + 1 => do
    if ← dropWord "elif" then
      let test ← commands fuel
      expectWord "then"
      let body ← commands fuel
      let (more, otherwise) ← branches fuel
      return ((test, body) :: more, otherwise)
    else if ← dropWord "else" then
      let otherwise ← commands fuel
      expectWord "fi"
      return ([], otherwise)
    else
      expectWord "fi"
      return ([], [])

/-- The arms of a selection, and its end. -/
def caseArms : Nat → Reading (List (List (List Part) × List Command))
  | 0 => throw .tooDeep
  | fuel + 1 => do
    skipLines fuel
    if ← dropWord "esac" then return []
    let _ ← dropIf "("
    let patterns ← casePatterns fuel
    let body ← commands fuel
    skipLines fuel
    if ← dropIf ";;" then return (patterns, body) :: (← caseArms fuel)
    else
      expectWord "esac"
      return [(patterns, body)]

/-- The patterns of an arm. -/
def casePatterns : Nat → Reading (List (List Part))
  | 0 => throw .tooDeep
  | fuel + 1 => do
    skipBlanks fuel
    let p ← parts fuel .word 0
    skipBlanks fuel
    if ← dropIf "|" then return p :: (← casePatterns fuel)
    else
      expectSign ")"
      return [p]

/-- Commands joined by pipes. -/
def pipeline : Nat → Reading Command
  | 0 => throw .tooDeep
  | fuel + 1 => do
    skipBlanks fuel
    if ← dropWord "!" then return .negated (← pipeline fuel)
    let first ← command fuel
    skipBlanks fuel
    match ← get with
    | '|' :: '|' :: _ => return first
    | '|' :: _ =>
      drop 1
      skipLines fuel
      return .pipe first (← pipeline fuel)
    | _ => return first

/-- Commands joined by conditions, after the first. -/
def conditions : Nat → Command → Reading Command
  | 0, _ => throw .tooDeep
  | fuel + 1, first => do
    skipBlanks fuel
    if ← dropIf "&&" then
      skipLines fuel
      conditions fuel (.andThen first (← pipeline fuel))
    else if ← dropIf "||" then
      skipLines fuel
      conditions fuel (.orElse first (← pipeline fuel))
    else return first

/-- Commands one after the other on a line. -/
def lineCommands : Nat → Reading (List Command)
  | 0 => throw .tooDeep
  | fuel + 1 => do
    let c ← conditions fuel (← pipeline fuel)
    skipBlanks fuel
    match ← get with
    | ';' :: ';' :: _ => return [c]
    | s :: _ =>
      if s = ';' || s = '&' then
        drop 1
        let c := if s = '&' then .aside c else c
        skipBlanks fuel
        if ← startsCommand then return c :: (← lineCommands fuel) else return [c]
      else return [c]
    | [] => return [c]

/-- Commands up to something that no command starts with. -/
def commands : Nat → Reading (List Command)
  | 0 => throw .tooDeep
  | fuel + 1 => do
    skipLines fuel
    if ← startsCommand then
      let first ← lineCommands fuel
      skipBlanks fuel
      if (← peek) = some '\n' then return first ++ (← commands fuel) else return first
    else return []

end

end Reader

/-- The commands of the first line of a text that holds one, and the text after it. -/
def readLine (cs : List Char) : Except ReadFault (List Command × List Char) :=
  let fuel := 8 * cs.length + 64
  let reading : Reader.Reading (List Command) := do
    Reader.skipLines fuel
    if (← get) = [] then return []
    let found ← Reader.lineCommands fuel
    Reader.skipBlanks fuel
    match ← get with
    | [] | '\n' :: _ => return found
    | _ => Reader.refuse none
  reading.run cs

end FatInstall.Shell
