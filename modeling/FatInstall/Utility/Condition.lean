import FatInstall.Utility.Basic

/-!
# Conditions

The program that tests texts, numbers and files, and tells the answer by its status.

This serves runs of real processes only (`World.Processes`).
-/

namespace FatInstall.Utility

/-- Why a condition has no answer. -/
inductive ConditionFault
  | illegalNumber (word : String)
  | operandMissing (word : String)
  | bracketMissing
  deriving DecidableEq, Repr

namespace Condition

/-- The number that a word of a condition writes. -/
def number (w : String) : Except ConditionFault Int :=
  let s := String.ofList (w.toList.filter (· ≠ ' '))
  let s := if s.startsWith "+" then String.ofList (s.toList.drop 1) else s
  match s.toInt? with
  | some n => .ok n
  | none => .error (.illegalNumber w)

/-- The comparison of two numbers with the given name. -/
def comparison? : String → Option (Int → Int → Bool)
  | "-eq" => some (· == ·)
  | "-ne" => some (· != ·)
  | "-lt" => some (· < ·)
  | "-le" => some (· ≤ ·)
  | "-gt" => some (· > ·)
  | "-ge" => some (· ≥ ·)
  | _ => none

/-- Does the word stand between two others? -/
def isBinary (w : String) : Bool := w == "=" || w == "!=" || (comparison? w).isSome

/-- A condition on two words. -/
def binary (a op b : String) : Except ConditionFault Bool :=
  match comparison? op with
  | some test => do return test (← number a) (← number b)
  | none => .ok (if op = "=" then a == b else a != b)

/-- Does the word stand before another? -/
def isUnary (w : String) : Bool :=
  ["-e", "-f", "-d", "-r", "-w", "-x", "-s", "-L", "-h", "-n", "-z", "-t", "-p", "-b", "-c",
    "-S"].contains w

/-- A condition on one word. -/
def unary (h : Host) (op a : String) : Bool :=
  let node := (h.look (Path.ofString a)).toOption.bind id
  match op with
  | "-n" => a != ""
  | "-z" => a == ""
  | "-L" | "-h" =>
    match h.node false (Path.ofString a) with
    | .ok (.link _) => a != ""
    | _ => false
  | _ =>
    if a = "" then false
    else match op, node with
      | "-e", some _ | "-r", some _ | "-w", some _ => true
      | "-f", some (.file _ _) => true
      | "-d", some .directory | "-x", some .directory => true
      | "-s", some (.file _ content) => content != []
      | "-s", some .directory => true
      | "-c", some .device => true
      | _, _ => false

mutual

/-- Conditions of which one is to hold. -/
def anyOf (h : Host) : Nat → List String → Except ConditionFault (Bool × List String)
  | 0, ws => .ok (false, ws)
  | fuel + 1, ws => do
    let (a, ws) ← allOf h fuel ws
    match ws with
    | "-o" :: ws =>
      let (b, ws) ← anyOf h fuel ws
      return (a || b, ws)
    | _ => return (a, ws)

/-- Conditions of which all are to hold. -/
def allOf (h : Host) : Nat → List String → Except ConditionFault (Bool × List String)
  | 0, ws => .ok (false, ws)
  | fuel + 1, ws => do
    let (a, ws) ← single h fuel ws
    match ws with
    | "-a" :: ws =>
      let (b, ws) ← allOf h fuel ws
      return (a && b, ws)
    | _ => return (a, ws)

/-- One condition. -/
def single (h : Host) : Nat → List String → Except ConditionFault (Bool × List String)
  | 0, ws => .ok (false, ws)
  | fuel + 1, ws => do
    match ws with
    | [] => return (false, [])
    | [a] => return (a != "", [])
    | a :: op :: rest =>
      match isBinary op, rest with
      | true, b :: rest => return (← binary a op b, rest)
      | _, _ =>
        if a = "!" then
          let (x, rest) ← single h fuel (op :: rest)
          return (!x, rest)
        else if a = "(" then
          match ← anyOf h fuel (op :: rest) with
          | (x, ")" :: rest) => return (x, rest)
          | (x, rest) => return (x, rest)
        else if isUnary a then return (unary h a op, rest)
        else return (a != "", op :: rest)

end

/-- The answer of a condition. -/
def holds (h : Host) (ws : List String) : Except ConditionFault Bool := do
  match ← anyOf h (3 * ws.length + 3) ws with
  | (x, []) => return x
  | (_, w :: _) => .error (.operandMissing w)

end Condition

/-- Tests a condition. The program with a bracket for its name ends its words with another. -/
def test (message : ConditionFault → String) (isBracket : Bool) (c : Call) : Ended :=
  let words := if isBracket then c.args.dropLast else c.args
  if isBracket && c.args.getLast? != some "]" then c.fails 2 (message .bracketMissing)
  else match Condition.holds c.host words with
    | .ok true => c.ended 0
    | .ok false => c.ended 1
    | .error f => c.fails 2 (message f)

/-- The last piece of a path, without a suffix if one is given. -/
def basename (c : Call) : Ended :=
  match c.args with
  | [] => c.fails 1 "missing operand"
  | path :: more =>
    let p := Path.ofString path
    let name := if p.parts = [] then p.text else p.name
    let cs := name.replaced.toList
    let suffix := (more.headD "").toList
    let short :=
      if suffix ≠ [] ∧ suffix.length < cs.length ∧ suffix.reverse.isPrefixOf cs.reverse then
        cs.take (cs.length - suffix.length)
      else cs
    c.prints (String.ofList short ++ "\n")

/-- The path without its last piece. -/
def dirname (c : Call) : Ended :=
  match c.args with
  | [] => c.fails 1 "missing operand"
  | path :: _ => c.prints ((Path.ofString path).parent.string ++ "\n")

/-- Prints variables of the environment. -/
def printenv (c : Call) : Ended :=
  match c.args with
  | [] => c.prints (String.join (c.environment.map fun (n, v) => s!"{n}={v}\n"))
  | names =>
    let values := names.filterMap fun n => c.environment.lookup n
    { c.prints (String.join (values.map (· ++ "\n"))) with
      status := if values.length = names.length then 0 else 1 }

/-- The message of a fault, as the program on its own tells it. -/
def conditionMessage (c : Call) : ConditionFault → String
  | .illegalNumber w => "invalid integer " ++ c.inQuotes w
  | .operandMissing w => "extra argument " ++ c.inQuotes w
  | .bracketMissing => "missing " ++ c.inQuotes "]"

end FatInstall.Utility
