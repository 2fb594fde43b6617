import FatInstall.Utility.Echo

/-!
# Printing by a format

A format is printed again and again until no words are left; its directives are filled with words.

This serves runs of real processes only (`World.Processes`).
-/

namespace FatInstall.Utility

/-- A text with at least so many characters, blanks or zeros in front or blanks behind. -/
def padded (width : Nat) (left zeros : Bool) (s : List UInt8) (sign : List UInt8) : List UInt8 :=
  let n := width - s.length - sign.length
  if left then sign ++ s ++ List.replicate n 32
  else if zeros then sign ++ List.replicate n 48 ++ s
  else List.replicate n 32 ++ sign ++ s

/-- The digits of a number in a base. -/
def digitsOf (base n : Nat) : String := String.ofList (Nat.toDigits base n)

/-- A whole number as a word writes it, and whether the word writes one. -/
def wordNumber (w : String) : Int × Bool :=
  match w.toList with
  | '\'' :: c :: _ | '"' :: c :: _ => (c.toNat, true)
  | cs =>
    let (sign, r) : Int × List Char := match cs with
      | '-' :: r => (-1, r)
      | '+' :: r => (1, r)
      | r => (1, r)
    let inBase (base : Nat) (digits : List Char) : Int × Bool :=
      let value (c : Char) : Nat :=
        if c.isDigit then c.toNat - 48
        else if 'a' ≤ c ∧ c ≤ 'f' then c.toNat - 87
        else if 'A' ≤ c ∧ c ≤ 'F' then c.toNat - 55
        else 99
      let good := digits.takeWhile fun c => value c < base
      (sign * (good.foldl (fun n c => n * base + value c) 0 : Nat),
        good.length == digits.length && digits != [])
    match r with
    | '0' :: x :: r' => if x = 'x' ∨ x = 'X' then inBase 16 r' else inBase 8 (x :: r')
    | _ => inBase 10 r

/-- What is wrong with a format or a word for it. -/
inductive PrintFault
  /-- The word is no number. -/
  | notNumeric (word : String)
  /-- The word starts with a number. -/
  | partlyNumeric (word : String)
  | noDirective (text : String)
  deriving DecidableEq, Repr

/-- A directive of a format: its flags, width, precision and letter. -/
structure Directive where
  flags : List Char
  width : Nat
  precision : Option Nat
  letter : Char

/-- Fills a directive with a word: the bytes, the complaint, and whether output stops. -/
def Directive.fill (d : Directive) (w : String) : List UInt8 × Option PrintFault × Bool :=
  let left := d.flags.contains '-'
  let zeros := d.flags.contains '0' && !left
  let plainSign : List UInt8 :=
    if d.flags.contains '+' then [43] else if d.flags.contains ' ' then [32] else []
  let complaint := if w = "" ∨ (wordNumber w).2 then none
    else if (wordNumber w).1 = 0 then some (PrintFault.notNumeric w)
    else some (PrintFault.partlyNumeric w)
  let n := (wordNumber w).1
  let numeral (s : String) (sign : List UInt8) : List UInt8 :=
    let s := bytesOf s
    match d.precision with
    | some p => padded d.width left false (List.replicate (p - s.length) 48 ++ s) sign
    | none => padded d.width left zeros s sign
  let unsigned : Nat := if n < 0 then (n + Nat.pow 2 64).toNat else n.toNat
  let cutTo (bs : List UInt8) : List UInt8 := match d.precision with
    | some p => bs.take p
    | none => bs
  if d.letter = 's' then (padded d.width left false (cutTo (bytesOf w)) [], none, false)
  else if d.letter = 'b' then
    let (bytes, stopped) := escaped (w.length + 1) w.toList
    (padded d.width left false (cutTo bytes) [], none, stopped)
  else if d.letter = 'c' then
    (padded d.width left false (bytesOf (String.ofList (w.toList.take 1))) [], none, false)
  else if d.letter = 'd' ∨ d.letter = 'i' then
    (numeral (toString n.natAbs) (if n < 0 then [45] else plainSign), complaint, false)
  else if d.letter = 'u' then (numeral (toString unsigned) [], complaint, false)
  else if d.letter = 'o' then
    let start := if d.flags.contains '#' then "0" else ""
    (numeral (start ++ digitsOf 8 unsigned) [], complaint, false)
  else if d.letter = 'x' then
    (numeral (digitsOf 16 unsigned) (if d.flags.contains '#' then bytesOf "0x" else []), complaint,
      false)
  else
    (numeral (digitsOf 16 unsigned).toUpper
      (if d.flags.contains '#' then bytesOf "0X" else []), complaint, false)

/-- The number that is written next, or the next word for a star. -/
def formatNumber (cs : List Char) (words : List String) :
    Option Nat × List Char × List String :=
  match cs with
  | '*' :: r => (some (wordNumber (words.headD "0")).1.natAbs, r, words.tail)
  | _ =>
    let digits := cs.takeWhile Char.isDigit
    if digits = [] then (none, cs, words)
    else (some (wordNumber ("0" ++ String.ofList digits)).1.natAbs, cs.drop digits.length, words)

/-- A directive after its percent sign, what follows it, and the words that are left. -/
def directive (cs : List Char) (words : List String) :
    Option (Directive × List Char × List String) :=
  let flags := cs.takeWhile fun c => "-+ 0#".toList.contains c
  let (width, cs, words) := match (cs.drop flags.length) with
    | '*' :: r => formatNumber ('*' :: r) words
    | r =>
      let digits := r.takeWhile Char.isDigit
      (if digits = [] then none else (String.ofList digits).toNat?, r.drop digits.length, words)
  let (precision, cs, words) : Option Nat × List Char × List String := match cs with
    | '.' :: r =>
      let (p, r, ws) := formatNumber r words
      (some (p.getD 0), r, ws)
    | _ => (none, cs, words)
  match cs with
  | c :: r =>
    if "sbcdiuoxX".toList.contains c then some (⟨flags, width.getD 0, precision, c⟩, r, words)
    else none
  | [] => none

/-- What a format prints. -/
structure Printed where
  out : List UInt8
  faults : List PrintFault
  /-- The words that are left. -/
  words : List String
  /-- Was a word asked for? -/
  tookWord : Bool
  stopped : Bool

/-- Prints a format once. -/
def printOnce : Nat → List Char → Printed → Printed
  | 0, _, p | _, [], p => p
  | fuel + 1, c :: r, p =>
    if c = '\\' then
      match r with
      | [] => { p with out := p.out ++ [92] }
      | d :: r' =>
        if (octal? d).isSome then
          let (n, r') := octalNumber 3 r
          printOnce fuel r' { p with out := p.out ++ [UInt8.ofNat n] }
        else match escapeLetter? d with
          | some b => printOnce fuel r' { p with out := p.out ++ [b] }
          | none => printOnce fuel r { p with out := p.out ++ [92] }
    else if c = '%' then
      match r with
      | '%' :: r' => printOnce fuel r' { p with out := p.out ++ [37] }
      | _ =>
        match directive r p.words with
        | none =>
          let shown := String.ofList ('%' :: r.take 1)
          { p with faults := p.faults ++ [.noDirective shown], stopped := true }
        | some (d, r', words) =>
          let (bytes, fault, stopped) := d.fill (words.headD "")
          let p : Printed :=
            { out := p.out ++ bytes, faults := p.faults ++ fault.toList
              words := words.tail, tookWord := true, stopped }
          if stopped then p else printOnce fuel r' p
    else printOnce fuel r { p with out := p.out ++ bytesOf c.toString }

/-- Prints a format again and again until no words are left. -/
def printAll (format : List Char) : Nat → Printed → Printed
  | 0, p => p
  | fuel + 1, p =>
    let p := printOnce (format.length + 1) format { p with tookWord := false }
    if p.stopped || p.words.isEmpty || !p.tookWord then p else printAll format fuel p

/-- The message of a fault, as the program on its own tells it. -/
def printMessage (c : Call) : PrintFault → String
  | .notNumeric w => c.inQuotes w ++ ": expected a numeric value"
  | .partlyNumeric w => c.inQuotes w ++ ": value not completely converted"
  | .noDirective d => s!"{d}: invalid conversion specification"

/-- Prints its words as a format says. -/
def printf (message : Call → PrintFault → String) (c : Call) : Ended :=
  match c.args with
  | [] => c.fails 2 "usage: printf format [arg ...]"
  | w :: ws =>
    let (format, words) := if w = "--" then (ws.headD "", ws.tail) else (w, ws)
    let p := printAll format.toList (words.length + 1) ⟨[], [], words, false, false⟩
    { c.ended (if p.faults.isEmpty then 0 else 1) with
      out := p.out, err := p.faults.flatMap fun f => c.complaint (message c f) }

end FatInstall.Utility
