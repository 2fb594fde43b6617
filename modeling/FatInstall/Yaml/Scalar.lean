import FatInstall.Text.Lower
import FatInstall.Yaml.Base64
import FatInstall.Yaml.Cursor
import FatInstall.Yaml.Tag
import FatInstall.Value.Text

/-!
# The values of scalars

What a scalar of each kind denotes. A scalar need not be written the way its kind asks for, since
a tag can be given to any text; then it has no value.
-/

namespace FatInstall.Yaml.Scalar

/-- A value, or the fault that there is none. -/
def orNone {α : Type} : Option α → Except Fault α
  | some a => .ok a
  | none => .error (.value .noSuchValue)

/-- The characters of a text that is read as a number. A text with a surrogate is none. -/
def characters (text : Text) : Except Fault (List Char) := orNone text.chars?

/-- A truth value. -/
def bool (text : Text) : Except Fault Value :=
  let word := Text.lower text
  match word.string? with
  | some "yes" | some "true" | some "on" => .ok (.bool true)
  | some "no" | some "false" | some "off" => .ok (.bool false)
  | _ => .error (.value (.unknownTruth word))

/-- The sign of a number, and the characters after it. -/
def signed : List Char → Int × List Char
  | '-' :: r => (-1, r)
  | '+' :: r => (1, r)
  | r => (1, r)

/-- The number of base sixty with the given parts. -/
def baseSixty (parts : List Int) : Int := parts.foldl (fun n p => n * 60 + p) 0

/-- A whole number without its sign. -/
def unsignedInt (cs : List Char) : Except Fault Int :=
  match cs with
  | [] => .error (.value .emptyNumber)
  | ['0'] => .ok 0
  | '0' :: 'b' :: r => orNone (Decimal.readInt 2 r)
  | '0' :: 'x' :: r => orNone (Decimal.readInt 16 r)
  | '0' :: _ => orNone (Decimal.readInt 8 cs)
  | _ =>
    if cs.contains ':' then
      (orNone ((splitAt ':' cs).mapM (Decimal.readInt 10))).map baseSixty
    else orNone (Decimal.readInt 10 cs)

/-- A whole number. -/
def int (text : Text) : Except Fault Value := do
  let cs := (← characters text).filter (· ≠ '_')
  if cs = [] then .error (.value .emptyNumber)
  else
    let (sign, r) := signed cs
    (unsignedInt r).map fun n => .int (sign * n)

/-- The largest power of sixty that a double can be. -/
def maxSixtyPower : Nat := 173

/-- The sum of the parts of a number of base sixty, each times its power, the last part first. -/
def floatSum : Nat → Float → List Float → Except Fault Float
  | _, sum, [] => .ok sum
  | power, sum, x :: r =>
    if maxSixtyPower < power then .error (.value .scaleTooLarge)
    else floatSum (power + 1) (sum + x * Decimal.toDouble (Nat.pow 60 power) 0) r

/-- A double without its sign. -/
def unsignedFloat (cs : List Char) : Except Fault Float :=
  if cs = ".inf".toList then .ok (1.0 / 0.0)
  else if cs.contains ':' then do
    let parts ← orNone ((splitAt ':' cs).mapM Decimal.readFloat)
    floatSum 0 0.0 parts.reverse
  else orNone (Decimal.readFloat cs)

/-- The characters of a double that are read, in lower case. -/
def floatCharacters (cs : List Char) : List Char := (cs.filter (· ≠ '_')).map Char.toLower

/-- Is it the word for what is not a number, with or without a sign? -/
def isNotANumber (text : Text) : Bool :=
  match text.chars? with
  | some cs => (signed (floatCharacters cs)).2 == ".nan".toList
  | none => false

/-- A double. -/
def float (text : Text) : Except Fault Value := do
  let cs := floatCharacters (← characters text)
  if cs = [] then .error (.value .emptyNumber)
  else if isNotANumber text then .ok (.float (0.0 / 0.0))
  else
    let (sign, r) := signed cs
    (unsignedFloat r).map fun x => .float (if sign < 0 then -x else x)

/-- Bytes. -/
def binary (text : Text) : Except Fault Value :=
  match text.chars? with
  | none => .error .malformed
  | some cs =>
    if cs.all fun c => c.toNat < 0x80 then
      match Base64.read cs with
      | some bytes => .ok (.bytes bytes)
      | none => .error .malformed
    else .error .malformed

/-- A date or a moment. -/
def timestamp (text : Text) : Except Fault Value :=
  let cs := text.chars?.getD []
  match Timestamp.read? (if cs.getLast? = some '\n' then cs.dropLast else cs) with
  | none => .error (.value .notADate)
  | some t => do
    match t.time with
    | none => return .date (← orNone (Date.of? t.year t.month t.day))
    | some (hour, minute, second) =>
      if 24 * 60 ≤ (t.offset.getD 0).natAbs then .error (.value .noSuchValue)
      let date ← orNone (Date.of? t.year t.month t.day)
      let moment := Moment.of? date hour minute second (Timestamp.microseconds t.fraction) t.offset
      return .moment (← orNone moment)

/-- The value of a scalar. Kinds that no scalar can have, and unknown ones, are faults. -/
def value (tag : Tag) (text : Text) : Except Fault Value :=
  match tag with
  | .null => .ok .null
  | .bool => bool text
  | .int => int text
  | .float => float text
  | .binary => binary text
  | .timestamp => timestamp text
  | .str => .ok (.text text)
  | _ => .error .malformed

end FatInstall.Yaml.Scalar
