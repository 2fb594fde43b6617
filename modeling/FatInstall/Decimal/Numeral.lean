import FatInstall.Text.Blank
import FatInstall.Text.Digit

/-!
# Reading numerals

The texts that stand for a whole number or a double: digits of any script, single underscores
between digits, a sign, white space around. A double may also have a point, an exponent, or be one
of the words for infinity and for what is not a number.
-/

namespace FatInstall.Decimal

/-- White space around a numeral; the information separators are not white space here. -/
def isPadding (c : Char) : Bool :=
  Text.isBlank c && !(0x1C ≤ c.toNat && c.toNat ≤ 0x1F)

/-- The value of a digit, a letter counting from ten on. -/
def digitOf (c : Char) : Option Nat :=
  if 'a' ≤ c ∧ c ≤ 'z' then some (c.toNat - 'a'.toNat + 10)
  else if 'A' ≤ c ∧ c ≤ 'Z' then some (c.toNat - 'A'.toNat + 10)
  else Text.digitValue? c

/-- Digits of a base with single underscores between them; `fresh` says whether the last
character read was a digit. -/
def readDigits (base : Nat) : Bool → Nat → List Char → Option Nat
  | fresh, acc, [] => if fresh then some acc else none
  | fresh, acc, c :: r =>
    if c = '_' then if fresh then readDigits base false acc r else none
    else match digitOf c with
      | some d => if d < base then readDigits base true (acc * base + d) r else none
      | none => none

/-- The mark that may stand before the digits of a base. -/
def baseMark : Nat → List Char
  | 2 => ['b', 'B']
  | 8 => ['o', 'O']
  | 16 => ['x', 'X']
  | _ => []

/-- The digits after a base mark, if there is one; an underscore may stand after the mark. -/
def dropBaseMark (base : Nat) : List Char → List Char
  | '0' :: c :: r =>
    if (baseMark base).contains c then
      match r with
      | '_' :: r' => r'
      | r => r
    else '0' :: c :: r
  | cs => cs

/-- The most decimal digits of a whole number that is read or written. -/
def maxDigits : Nat := 4300

/-- Has the numeral more digits than are read? Bases that are powers of two have no bound. -/
def isTooLong (base : Nat) (cs : List Char) : Bool :=
  base == 10 && maxDigits < (cs.filter (· != '_')).length

/-- A whole number in the given base. -/
def readInt (base : Nat) (cs : List Char) : Option Int :=
  let unsigned (r : List Char) : Option Nat :=
    let ds := dropBaseMark base r
    if isTooLong base ds then none else readDigits base false 0 ds
  match Text.trim isPadding cs with
  | '-' :: r => (unsigned r).map fun n => -(n : Int)
  | '+' :: r => (unsigned r).map fun n => (n : Int)
  | r => (unsigned r).map fun n => (n : Int)

/-- ASCII digits in place of the digits of other scripts. -/
def plainDigits (cs : List Char) : List Char :=
  cs.map fun c => match Text.digitValue? c with
    | some d => Nat.digitChar d
    | none => c

/-- Drops each underscore that stands between digits; any other is refused. `fresh` says whether
the character before is a digit. -/
def joinDigits : Bool → List Char → Option (List Char)
  | _, [] => some []
  | fresh, '_' :: c :: r =>
    if fresh && c.isDigit then (joinDigits true r).map (c :: ·) else none
  | _, c :: r => if c = '_' then none else (joinDigits c.isDigit r).map (c :: ·)

/-- The double nearest to `digits · 10 ^ exponent`. -/
def toDouble (digits : Nat) (exponent : Int) : Float :=
  let size : Int := (Nat.toDigits 10 digits).length + exponent
  if digits = 0 ∨ size < -400 then 0.0
  else if 400 < size then 1.0 / 0.0
  else if 0 ≤ exponent then Float.ofScientific digits false exponent.toNat
  else Float.ofScientific digits true (-exponent).toNat

/-- The number of a row of ASCII digits. -/
def digitsValue (cs : List Char) : Nat := Nat.ofDigitChars 10 cs 0

/-- An exponent after its letter: a sign and digits. -/
def readExponent (cs : List Char) : Option Int :=
  let digits (r : List Char) : Option Int :=
    if r ≠ [] ∧ r.all Char.isDigit then some (digitsValue r) else none
  match cs with
  | '-' :: r => (digits r).map (- ·)
  | '+' :: r => digits r
  | r => digits r

/-- An unsigned double in ASCII, without underscores. -/
def readUnsigned (cs : List Char) : Option Float :=
  let word := String.ofList (cs.map Char.toLower)
  if word = "inf" ∨ word = "infinity" then some (1.0 / 0.0)
  else if word = "nan" then some (0.0 / 0.0)
  else
    let whole := cs.takeWhile Char.isDigit
    let rest := cs.dropWhile Char.isDigit
    let (part, rest) := match rest with
      | '.' :: r => (r.takeWhile Char.isDigit, r.dropWhile Char.isDigit)
      | r => ([], r)
    if whole = [] ∧ part = [] then none
    else
      let value (e : Int) := toDouble (digitsValue (whole ++ part)) (e - part.length)
      match rest with
      | [] => some (value 0)
      | c :: r => if c = 'e' ∨ c = 'E' then (readExponent r).map value else none

/-- A double. -/
def readFloat (cs : List Char) : Option Float := do
  let cs ← joinDigits false (plainDigits (Text.trim isPadding cs))
  match cs with
  | '-' :: r => (readUnsigned r).map fun x => -x
  | '+' :: r => readUnsigned r
  | r => readUnsigned r

end FatInstall.Decimal
