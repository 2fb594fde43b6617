/-!
# Arithmetic

Expressions over whole numbers of 64 bits, with the operators of C and its precedences. A name
stands for the number that its variable holds, and can be set.

This serves runs of real processes only (`World.Processes`).
-/

namespace FatInstall.Shell.Arithmetic

/-- What is wrong with an expression. -/
inductive Fault
  | primaryExpected
  | endExpected
  | divisionByZero
  deriving DecidableEq, Repr

/-- The message of a fault. -/
def Fault.message : Fault → String
  | primaryExpected => "expecting primary"
  | endExpected => "expecting EOF"
  | divisionByZero => "division by zero"

/-- A token. -/
inductive Token
  | number (n : Int)
  | name (s : String)
  | sign (s : String)
  deriving DecidableEq, Repr

/-- The number brought into 64 bits. -/
def wrap (n : Int) : Int := n.bmod (Nat.pow 2 64)

/-- The value of a digit of any base up to sixteen. -/
def digitValue (c : Char) : Nat :=
  if c.isDigit then c.toNat - '0'.toNat
  else if 'a' ≤ c ∧ c ≤ 'f' then c.toNat - 'a'.toNat + 10
  else if 'A' ≤ c ∧ c ≤ 'F' then c.toNat - 'A'.toNat + 10
  else 16

/-- The number of a row of digits: the base is told by how it starts. -/
def numberOf? (cs : List Char) : Option Int :=
  let inBase (base : Nat) (digits : List Char) : Option Int :=
    if digits ≠ [] ∧ digits.all fun c => digitValue c < base then
      some (wrap (digits.foldl (fun n c => base * n + digitValue c) 0 : Nat))
    else none
  match cs with
  | '0' :: 'x' :: r | '0' :: 'X' :: r => inBase 16 r
  | '0' :: c :: r => inBase 8 (c :: r)
  | _ => inBase 10 cs

/-- The signs, the longer ones first. -/
def signs : List String :=
  ["<<=", ">>=", "&&", "||", "==", "!=", "<=", ">=", "<<", ">>", "+=", "-=", "*=", "/=", "%=",
    "&=", "^=", "|=", "+", "-", "*", "/", "%", "(", ")", "<", ">", "&", "|", "^", "!", "~", "?",
    ":", "=", ","]

/-- The tokens of an expression. -/
def tokens : Nat → List Char → Option (List Token)
  | 0, _ => none
  | _, [] => some []
  | fuel + 1, c :: r =>
    if c = ' ' ∨ c = '\t' ∨ c = '\n' then tokens fuel r
    else if c.isDigit then
      let taken := (c :: r).takeWhile fun d => d.isAlphanum
      match numberOf? taken with
      | some n => (tokens fuel ((c :: r).drop taken.length)).map (.number n :: ·)
      | none => none
    else if c.isAlpha ∨ c = '_' then
      let taken := (c :: r).takeWhile fun d => d.isAlphanum || d == '_'
      (tokens fuel ((c :: r).drop taken.length)).map (.name (String.ofList taken) :: ·)
    else match signs.find? fun s => s.toList.isPrefixOf (c :: r) with
      | some s => (tokens fuel ((c :: r).drop s.length)).map (.sign s :: ·)
      | none => none

/-- The operators between two operands, with their precedences. -/
def precedence? : String → Option Nat
  | "||" => some 1
  | "&&" => some 2
  | "|" => some 3
  | "^" => some 4
  | "&" => some 5
  | "==" | "!=" => some 6
  | "<" | ">" | "<=" | ">=" => some 7
  | "<<" | ">>" => some 8
  | "+" | "-" => some 9
  | "*" | "/" | "%" => some 10
  | _ => none

/-- A truth value as a number. -/
def ofBool (b : Bool) : Int := if b then 1 else 0

/-- The number with the bits of two others combined. -/
def onBits (f : Nat → Nat → Nat) (a b : Int) : Int :=
  wrap (f (a % Nat.pow 2 64).toNat (b % Nat.pow 2 64).toNat)

/-- The result of an operator. -/
def apply (op : String) (a b : Int) : Except Fault Int :=
  match op with
  | "||" => .ok (ofBool (a != 0 || b != 0))
  | "&&" => .ok (ofBool (a != 0 && b != 0))
  | "|" => .ok (onBits Nat.lor a b)
  | "^" => .ok (onBits Nat.xor a b)
  | "&" => .ok (onBits Nat.land a b)
  | "==" => .ok (ofBool (a == b))
  | "!=" => .ok (ofBool (a != b))
  | "<" => .ok (ofBool (a < b))
  | ">" => .ok (ofBool (a > b))
  | "<=" => .ok (ofBool (a ≤ b))
  | ">=" => .ok (ofBool (a ≥ b))
  | "<<" => .ok (wrap (a * Nat.pow 2 (b % 64).toNat))
  | ">>" => .ok (a / Nat.pow 2 (b % 64).toNat)
  | "+" => .ok (wrap (a + b))
  | "-" => .ok (wrap (a - b))
  | "*" => .ok (wrap (a * b))
  | "/" => if b = 0 then .error .divisionByZero else .ok (wrap (a.tdiv b))
  | "%" => if b = 0 then .error .divisionByZero else .ok (a.tmod b)
  | _ => .error .primaryExpected

/-- Variables, by name. -/
abbrev Variables := List (String × String)

/-- The number that a variable holds. -/
def valueOf (vs : Variables) (name : String) : Int :=
  let cs := ((vs.lookup name).getD "").toList
  match cs with
  | '-' :: r => wrap (-((numberOf? r).getD 0))
  | _ => (numberOf? cs).getD 0

/-- The variables with one set. -/
def assign (vs : Variables) (name : String) (n : Int) : Variables :=
  (name, toString n) :: vs.filter fun v => v.1 != name

/-- The result of reading a part of an expression: its value, the variables, and what follows. -/
abbrev Step := Except Fault (Int × Variables × List Token)

mutual

/-- An assignment or a condition. -/
def expression : Nat → Variables → List Token → Step
  | 0, _, _ => .error .primaryExpected
  | fuel + 1, vs, ts =>
    match ts with
    | .name v :: .sign op :: rest =>
      if op = "=" then do
        let (n, vs, rest) ← expression fuel vs rest
        return (n, assign vs v n, rest)
      else if ["+=", "-=", "*=", "/=", "%=", "&=", "^=", "|=", "<<=", ">>="].contains op then do
        let (n, vs, rest) ← expression fuel vs rest
        let m ← apply (String.ofList op.toList.dropLast) (valueOf vs v) n
        return (m, assign vs v m, rest)
      else choice fuel vs ts
    | _ => choice fuel vs ts

/-- A choice between two values. -/
def choice : Nat → Variables → List Token → Step
  | 0, _, _ => .error .primaryExpected
  | fuel + 1, vs, ts => do
    let (test, vs, rest) ← unary fuel vs ts
    let (test, vs, rest) ← operators fuel 1 test vs rest
    match rest with
    | .sign "?" :: rest =>
      let (a, vs', rest) ← expression fuel vs rest
      match rest with
      | .sign ":" :: rest =>
        let (b, vs'', rest) ← expression fuel vs rest
        return if test != 0 then (a, vs', rest) else (b, vs'', rest)
      | _ => .error .primaryExpected
    | _ => return (test, vs, rest)

/-- Operators of at least the given precedence after an operand. -/
def operators : Nat → Nat → Int → Variables → List Token → Step
  | 0, _, _, _, _ => .error .primaryExpected
  | fuel + 1, least, a, vs, ts =>
    match ts with
    | .sign op :: rest =>
      match precedence? op with
      | some p =>
        if p < least then .ok (a, vs, ts)
        else do
          let (b, vs', rest) ← unary fuel vs rest
          let (b, vs', rest) ← operators fuel (p + 1) b vs' rest
          let skipped := (op = "||" ∧ a ≠ 0) ∨ (op = "&&" ∧ a = 0)
          let n ← apply op a b
          operators fuel least n (if skipped then vs else vs') rest
      | none => .ok (a, vs, ts)
    | _ => .ok (a, vs, ts)

/-- An operand with the operators before it. -/
def unary : Nat → Variables → List Token → Step
  | 0, _, _ => .error .primaryExpected
  | fuel + 1, vs, ts =>
    match ts with
    | .number n :: rest => .ok (n, vs, rest)
    | .name v :: rest => .ok (valueOf vs v, vs, rest)
    | .sign "(" :: rest => do
      let (n, vs, rest) ← expression fuel vs rest
      match rest with
      | .sign ")" :: rest => return (n, vs, rest)
      | _ => .error .primaryExpected
    | .sign op :: rest => do
      let (n, vs, rest) ← unary fuel vs rest
      match op with
      | "-" => return (wrap (-n), vs, rest)
      | "+" => return (n, vs, rest)
      | "!" => return (ofBool (n == 0), vs, rest)
      | "~" => return (-n - 1, vs, rest)
      | _ => .error .primaryExpected
    | [] => .error .primaryExpected

end

/-- The value of an expression, and the variables after it. -/
def evaluate (vs : Variables) (s : String) : Except Fault (Int × Variables) :=
  match tokens (s.length + 1) s.toList with
  | none => .error .primaryExpected
  | some [] => .ok (0, vs)
  | some ts => do
    let (n, vs, rest) ← expression (4 * ts.length + 8) vs ts
    if rest = [] then return (n, vs) else .error .endExpected

end FatInstall.Shell.Arithmetic
