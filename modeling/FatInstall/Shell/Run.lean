import FatInstall.Shell.Arithmetic
import FatInstall.Shell.Expansion
import FatInstall.Shell.Own
import FatInstall.Shell.Reader
import FatInstall.Shell.Stream

/-!
# Running scripts

A script is run line by line. Commands that stand aside (in brackets, in a pipe, inside a word)
work on a copy of the shell: what they do to the files and what they write stays, what they do to
the shell does not.

This serves runs of real processes only (`World.Processes`).
-/

namespace FatInstall.Shell

mutual

/-- The parts of a word, put into fields. -/
def expandParts : Nat → Expansion → Fields → List Part → Act Fields
  | 0, _, _, _ => throw .stuck
  | _ + 1, _, f, [] => return f
  | fuel + 1, e, f, p :: ps => do
    let s ← get
    let put := e.put s.separators
    let value (n : String) : Act (Option String) := do
      let v := s.value? n
      if v.isNone && s.stopsOnUnset && n ≠ "@" && n ≠ "*" then stop s!"{n}: {unsetText}"
      return v
    let f ← match p with
      | .plain t => pure (f.add e.isQuoted t)
      | .literal t => pure (f.add true t)
      | .quoted inner =>
        let start := match inner with
          | [.value "@"] => f
          | _ => f.add true ""
        expandParts fuel { e with isQuoted := true } start inner
      | .value "@" => pure (Fields.addAll put f s.args)
      | .value "*" => pure (if e.isQuoted then put f (String.intercalate " " s.args)
          else Fields.addAll put f s.args)
      | .value n =>
        match ← value n with
        | some v => pure (put f v)
        | none => pure (if e.isQuoted then put f "" else f)
      | .length n => pure (put f (toString ((← value n).getD "").length))
      | .number inner => do
        let text ← expandText fuel true inner
        match Arithmetic.evaluate (← get).held text with
        | .ok (n, vs) =>
          modify fun s => { s with held := vs }
          pure (put f (toString n))
        | .error fault => stop s!"arithmetic expression: {fault.message}: \"{text}\""
      | .output script => do
        let t ← collecting (aside (runAll fuel false script))
        pure (put f (trimmed t))
      | .substitute n rule orEmpty inner => do
        if n = "" then stop "Bad substitution"
        let v := s.value? n
        let has := match v with
          | some "" => !orEmpty
          | some _ => true
          | none => false
        match rule with
        | .fallback => if has then pure (put f (v.getD "")) else expandParts fuel e f inner
        | .instead => if has then expandParts fuel e f inner else pure f
        | .assigned =>
          if has then pure (put f (v.getD ""))
          else
            let text ← expandText fuel e.isQuoted inner
            modify (·.setVariable n text)
            pure (put f text)
        | .required =>
          if has then pure (put f (v.getD ""))
          else
            let text ← expandText fuel e.isQuoted inner
            let usual := if orEmpty then unsetText ++ " or null" else unsetText
            let said := if text = "" then usual else text
            stop s!"{n}: {said}"
        | .withoutStart longest =>
          pure (put f (withoutStart longest (← expandMarks fuel inner) ((← value n).getD "")))
        | .withoutEnd longest =>
          pure (put f (withoutEnd longest (← expandMarks fuel inner) ((← value n).getD "")))
    expandParts fuel e f ps

/-- The text of a word that is not cut into fields. -/
def expandText : Nat → Bool → List Part → Act String
  | 0, _, _ => throw .stuck
  | fuel + 1, isQuoted, ps => do
    let f ← expandParts fuel ⟨isQuoted, false⟩ .empty ps
    return String.intercalate " " (f.all.map textOfMarks)

/-- The marks of a word that is a pattern. -/
def expandMarks : Nat → List Part → Act (List Mark)
  | 0, _ => throw .stuck
  | fuel + 1, ps => do
    let f ← expandParts fuel ⟨false, false⟩ .empty ps
    return f.all.flatten

/-- The words of a command. -/
def expandWords : Nat → List (List Part) → Act (List String)
  | 0, _ => throw .stuck
  | _ + 1, [] => return []
  | fuel + 1, w :: ws => do
    let s ← get
    let w := match w with
      | .plain t :: r =>
        match t.toList, s.lookup? "HOME" with
        | '~' :: cs, some home =>
          if cs = [] ∧ r.isEmpty ∨ cs.head? = some '/' then
            .literal home :: .plain (String.ofList cs) :: r
          else w
        | _, _ => w
      | _ => w
    let f ← expandParts fuel ⟨false, true⟩ .empty w
    let host := (← get).host
    return f.all.flatMap (pathsOf host) ++ (← expandWords fuel ws)

/-- Makes redirections; says whether they could be made. -/
def redirectAll : Nat → List Redirect → Act Bool
  | 0, _ => throw .stuck
  | _ + 1, [] => return true
  | fuel + 1, ⟨stream, kind, target⟩ :: rs => do
    let text ← expandText fuel (kind == .document) target
    if ← redirect stream kind text then redirectAll fuel rs else return false

/-- Runs something with redirections, and takes them back. -/
def redirected : Nat → List Redirect → Act Unit → Act Unit
  | 0, _, _ => throw .stuck
  | fuel + 1, rs, act => do
    let before ← get
    let takesInput := rs.any fun
      | ⟨_, kind, _⟩ => kind == .input || kind == .document
    let restore : Act Unit := modify fun s =>
      { s with sinks := before.sinks, input := if takesInput then before.input else s.input }
    if ← redirectAll fuel rs then
      tryCatch act fun flow => do
        restore
        throw flow
      restore
    else
      restore
      setStatus statusError

/-- Sets variables one after the other. -/
def assignAll : Nat → List (String × List Part) → Act Unit
  | 0, _ => throw .stuck
  | _ + 1, [] => return ()
  | fuel + 1, (name, ps) :: r => do
    let v ← expandText fuel false ps
    modify (·.setVariable name v)
    assignAll fuel r

/-- Ends the shell after a failure, if it is set so and the failure is not tested. -/
def checkFailure (tested : Bool) : Act Unit := do
  let s ← get
  if s.stopsOnFailure && !tested && s.status ≠ 0 then throw (.leave s.status)

/-- Runs a command. The status of one that is tested is asked for by the command around it. -/
def run : Nat → Bool → Command → Act Unit
  | 0, _, _ => throw .stuck
  | fuel + 1, tested, c => do
    match c with
    | .simple settings words rs =>
      setStatusOfWords fuel settings words rs
      checkFailure tested
    | .andThen a b =>
      run fuel true a
      if (← get).status = 0 then run fuel tested b
    | .orElse a b =>
      run fuel true a
      if (← get).status ≠ 0 then run fuel tested b
    | .negated a =>
      run fuel true a
      setStatus (if (← get).status = 0 then 1 else 0)
    | .pipe a b =>
      let t ← collecting (aside (run fuel true a))
      let before ← get
      set { before with input := t.toList }
      aside (run fuel true b)
      modify fun s => { s with input := before.input }
      checkFailure tested
    | .aside a =>
      aside (run fuel true a)
      setStatus 0
    | .group body rs => redirected fuel rs (runAll fuel tested body)
    | .subshell body rs =>
      redirected fuel rs (aside (runAll fuel tested body))
      checkFailure tested
    | .conditional branches otherwise rs =>
      redirected fuel rs (runBranches fuel tested branches otherwise)
    | .loop whileTrue test body rs =>
      redirected fuel rs (runLoop fuel tested whileTrue test body 0)
    | .each name words body rs =>
      redirected fuel rs do
        let values ← match words with
          | some ws => expandWords fuel ws
          | none => pure (← get).args
        setStatus 0
        runEach fuel tested name body values
    | .select word arms rs =>
      redirected fuel rs do
        let text ← expandText fuel false word
        setStatus 0
        runArms fuel tested text arms
    | .define name body =>
      modify fun s =>
        { s with functions := (name, body) :: s.functions.filter fun f => f.1 != name, status := 0 }

/-- Runs commands one after the other. -/
def runAll : Nat → Bool → List Command → Act Unit
  | 0, _, _ => throw .stuck
  | _ + 1, _, [] => return ()
  | fuel + 1, tested, c :: cs => do
    run fuel tested c
    runAll fuel tested cs

/-- Runs the first branch whose test succeeds. -/
def runBranches : Nat → Bool → List (List Command × List Command) → List Command → Act Unit
  | 0, _, _, _ => throw .stuck
  | fuel + 1, tested, [], otherwise => do
    setStatus 0
    runAll fuel tested otherwise
  | fuel + 1, tested, (test, body) :: more, otherwise => do
    runAll fuel true test
    if (← get).status = 0 then runAll fuel tested body
    else runBranches fuel tested more otherwise

/-- Runs a loop. Its status is that of its last round. -/
def runLoop : Nat → Bool → Bool → List Command → List Command → Nat → Act Unit
  | 0, _, _, _, _, _ => throw .stuck
  | fuel + 1, tested, whileTrue, test, body, last => do
    let goes ← round do
      runAll fuel true test
      if ((← get).status == 0) != whileTrue then throw (.broken 1)
      runAll fuel tested body
    let status := (← get).status
    if goes then runLoop fuel tested whileTrue test body status
    else setStatus last

/-- Runs commands for each of the words. -/
def runEach : Nat → Bool → String → List Command → List String → Act Unit
  | 0, _, _, _, _ => throw .stuck
  | _ + 1, _, _, _, [] => return ()
  | fuel + 1, tested, name, body, v :: vs => do
    modify (·.setVariable name v)
    if ← round (runAll fuel tested body) then runEach fuel tested name body vs

/-- Runs the first arm that has a pattern that fits. -/
def runArms : Nat → Bool → String → List (List (List Part) × List Command) → Act Unit
  | 0, _, _, _ => throw .stuck
  | _ + 1, _, _, [] => return ()
  | fuel + 1, tested, text, (patterns, body) :: more => do
    if ← fitsAny fuel text patterns then runAll fuel tested body
    else runArms fuel tested text more

/-- Does one of the patterns fit? -/
def fitsAny : Nat → String → List (List Part) → Act Bool
  | 0, _, _ => throw .stuck
  | _ + 1, _, [] => return false
  | fuel + 1, text, p :: ps => do
    if Pattern.fits (← expandMarks fuel p) text.toList then return true
    fitsAny fuel text ps

/-- Runs a simple command. -/
def setStatusOfWords : Nat → List (String × List Part) → List (List Part) → List Redirect →
    Act Unit
  | 0, _, _, _ => throw .stuck
  | fuel + 1, settings, words, rs => do
    match ← expandWords fuel words with
    | [] =>
      setStatus 0
      redirected fuel rs (assignAll fuel settings)
    | "exec" :: [] =>
      if !(← redirectAll fuel rs) then throw (.leave statusError)
      setStatus 0
    | "exec" :: name :: args =>
      if !(← redirectAll fuel rs) then throw (.leave statusError)
      match findProgram (← get).host (((← get).lookup? "PATH").getD "") name with
      | .error cause =>
        let said := if isAbsence cause then "not found" else cause.text
        complain s!"exec: {name}: {said}"
        throw (.leave (if isAbsence cause then 127 else 126))
      | .ok _ =>
        match ← program fuel (name :: args) with
        | .status n => throw (.leave n)
        | .signal n => throw (.signalled n)
    | name :: args =>
      redirected fuel rs do
        let before ← get
        if settings.isEmpty then runWords fuel name args
        else
          assignAll fuel settings
          modify fun s => { s with exported := settings.map Prod.fst ++ s.exported }
          runWords fuel name args
          modify fun s => { s with held := before.held, exported := before.exported }

/-- Runs the words of a command: a function, a command of the shell itself, or a program. -/
def runWords : Nat → String → List String → Act Unit
  | 0, _, _ => throw .stuck
  | fuel + 1, name, args => do
    let s ← get
    match s.functions.lookup name with
    | some body =>
      set { s with args }
      tryCatch (run fuel false body) fun
        | .returned n => setStatus n
        | f => throw f
      modify fun t => { t with args := s.args }
    | none =>
      match name with
      | "cd" => changeDirectory args
      | "pwd" =>
        writeTo 1 (Utility.bytesOf ((s.lookup? "PWD").getD "" ++ "\n"))
        setStatus 0
      | "exit" => leave args
      | "return" =>
        match args with
        | [] => throw (.returned s.status)
        | w :: _ => throw (.returned ((← countOf "return" w) % 256))
      | "break" =>
        let levels ← match args with
          | [] => pure 1
          | w :: _ => countOf "break" w
        setStatus 0
        if s.loops ≠ 0 then throw (.broken levels)
      | "continue" =>
        let levels ← match args with
          | [] => pure 1
          | w :: _ => countOf "continue" w
        setStatus 0
        if s.loops ≠ 0 then throw (.continued levels)
      | "export" => declare true args
      | "local" | "readonly" => declare false args
      | "unset" => unset args
      | "set" => setOptions args
      | "shift" => shift args
      | "read" => readInto args
      | "trap" => setTraps args
      | "eval" => runText fuel (String.intercalate " " args)
      | "." =>
        match s.host.read (Path.ofString (args.headD "")) with
        | .ok bytes => runText fuel (Utility.textOf bytes)
        | .error _ =>
          let file := args.headD ""
          stop s!".: {file}: not found"
      | "command" =>
        match args with
        | "-v" :: names => describe names
        | n :: more => runWords fuel n more
        | [] => setStatus 0
      | "kill" =>
        let (word, processes) := killWords args
        match signalNumber? word with
        | none => stop s!"kill: invalid signal: {word}"
        | some number =>
          if processes.contains (toString s.process) then
            match s.traps.lookup number with
            | some action => runText fuel action
            | none => if isHarmless number then setStatus 0 else throw (.signalled number)
          else
            complain "kill: No such process\n"
            setStatus 1
      | _ =>
        match ownPrograms.lookup name with
        | some own => callAs s!"{s.name}: {s.line}: {name}" own args
        | none => reportEnding (← program fuel (name :: args))

/-- Runs the lines of a text. -/
def runText : Nat → String → Act Unit
  | 0, _ => throw .stuck
  | fuel + 1, text => runLines fuel (text.toList.count '\n') text.toList

/-- Runs lines; the number of line ends of the whole text tells their numbers. -/
def runLines : Nat → Nat → List Char → Act Unit
  | 0, _, _ => throw .stuck
  | fuel + 1, all, cs => do
    let number (rest : List Char) : Nat := all + 1 - rest.count '\n'
    match readLine cs with
    | .error fault =>
      modify fun s => { s with line := number (if all = 0 then cs else []) }
      stop fault.message
    | .ok (commands, rest) =>
      modify fun s => { s with line := number rest }
      runAll fuel false commands
      if rest = [] then return ()
      runLines fuel all (rest.drop 1)

/-- Runs a program in place of a copy of the shell. -/
def program : Nat → List String → Act Ending
  | 0, _ => throw .stuck
  | _, [] => return .status 0
  | fuel + 1, name :: args => do
    let s ← get
    match findProgram s.host ((s.lookup? "PATH").getD "") name with
    | .error cause =>
      let said := if isAbsence cause then "not found" else cause.text
      complain s!"{name}: {said}"
      return .status (if isAbsence cause then 127 else 126)
    | .ok "sh" | .ok "dash" => shell fuel name args
    | .ok "env" => withEnvironment fuel args
    | .ok found =>
      match Utility.programs.lookup found with
      | some p =>
        callAs name p args
        return .status (← get).status
      | none => return .status 127

/-- Runs a program with changes to the environment. -/
def withEnvironment : Nat → List String → Act Ending
  | 0, _ => throw .stuck
  | _ + 1, [] => do
    callAs "env" Utility.printenv []
    return .status 0
  | fuel + 1, w :: ws => do
    let s ← get
    let changed (act : Act Ending) : Act Ending := do
      let r ← act
      modify fun t => { t with held := s.held, exported := s.exported }
      return r
    match w, splitSetting w, ws with
    | "-i", _, _ =>
      set { s with exported := [] }
      changed (withEnvironment fuel ws)
    | "-u", _, n :: ws =>
      set { s with exported := s.exported.filter (· != n) }
      changed (withEnvironment fuel ws)
    | _, (n, some v), _ =>
      set { s.setVariable n v with exported := n :: s.exported }
      changed (withEnvironment fuel ws)
    | _, _, _ =>
      match findProgram s.host ((s.lookup? "PATH").getD "") w with
      | .ok _ => program fuel (w :: ws)
      | .error cause =>
        let said := Utility.Call.inQuotes ⟨"env", [], s.host, s.environment, []⟩ w
        writeTo 2 (Utility.bytesOf s!"env: {said}: {cause.text}\n")
        return .status (if isAbsence cause then 127 else 126)

/-- Runs a shell of its own, which gets the exported variables. -/
def shell : Nat → String → List String → Act Ending
  | 0, _, _ => throw .stuck
  | fuel + 1, name, args => do
    let outer ← get
    let inner : State :=
      { outer with
        held :=
          ("PWD", Path.string ⟨.root, outer.host.here⟩) ::
            outer.environment.filter fun v => v.1 != "PWD"
        exported := "PWD" :: outer.exported
        functions := [], name, args := [], status := 0, line := 0, loops := 0
        process := outer.process + 1
        stopsOnFailure := false, stopsOnUnset := false, traps := [] }
    set inner
    let act : Act Unit := do
      let options := args.takeWhile fun w => w.startsWith "-" && w ≠ "--" && w ≠ "-"
      let rest := args.drop options.length
      let letters := options.flatMap fun w => w.toList.drop 1
      setOptions (options.map fun w => String.ofList (w.toList.filter fun c => c ≠ 'c' && c ≠ 's'))
      if letters.contains 'c' then
        match rest with
        | [] => stop "-c requires an argument"
        | script :: more =>
          modify fun s => { s with name := more.headD name, args := more.tail }
          runText fuel script
      else match rest, letters.contains 's' with
        | [], _ | _, true =>
          let script := Utility.textOf inner.input
          modify fun s => { s with input := [], args := rest }
          runText fuel script
        | file :: more, false =>
          match inner.host.read (Path.ofString file) with
          | .error _ => stop s!"cannot open {file}: No such file"
          | .ok bytes =>
            modify fun s => { s with name := file, args := more }
            runText fuel (Utility.textOf bytes)
    let ending ← tryCatch (do
      act
      return .status (← get).status) fun
      | .leave n | .returned n => return .status n
      | .broken _ | .continued _ => return .status (← get).status
      | .signalled n => return .signal n
      | .stuck => throw .stuck
    match (← get).traps.lookup 0, ending with
    | some action, .status _ => tryCatch (runText fuel action) fun _ => return ()
    | _, _ => pure ()
    modify fun s =>
      { outer with
        host := { s.host with here := outer.host.here }, texts := s.texts, input := s.input }
    return ending

end

end FatInstall.Shell
