import FatInstall.Path
import FatInstall.Value.Calendar

/-!
# Written dates and moments

A date is year, month and day with dashes. A moment has a time after it, and may have a fraction
of a second and an offset from universal time.
-/

namespace FatInstall.Yaml

/-- A written date or moment, not yet checked against the calendar. -/
structure Timestamp where
  year : Nat
  month : Nat
  day : Nat
  /-- Hour, minute and second. -/
  time : Option (Nat × Nat × Nat)
  /-- The digits of the fraction of a second. -/
  fraction : List Char
  /-- Minutes ahead of universal time. -/
  offset : Option Int
  deriving DecidableEq, Repr

namespace Timestamp

/-- The number that digits write. -/
def numberOf (cs : List Char) : Nat := cs.foldl (fun n c => n * 10 + (c.toNat - '0'.toNat)) 0

/-- Between `least` and `most` digits, and the characters after them. -/
def digits (least most : Nat) (cs : List Char) : Option (Nat × List Char) :=
  let taken := (cs.take most).takeWhile Char.isDigit
  if taken.length < least then none else some (numberOf taken, cs.drop taken.length)

/-- The characters after the given one. -/
def expect (c : Char) : List Char → Option (List Char)
  | d :: r => if d = c then some r else none
  | [] => none

/-- Is the character a space or a tab? -/
def isSpace (c : Char) : Bool := c == ' ' || c == '\t'

/-- What follows the gap between the day and the time. -/
def afterGap (cs : List Char) : Option (List Char) :=
  match cs with
  | 'T' :: r | 't' :: r => some r
  | c :: r => if isSpace c then some (r.dropWhile isSpace) else none
  | [] => none

/-- An offset from universal time, and nothing after it; nothing at all is no offset. -/
def readOffset (cs : List Char) : Option (Option Int) :=
  if cs = [] then some none
  else
    let signed (sign : Int) (r : List Char) : Option (Option Int) := do
      let (hours, r) ← digits 1 2 r
      match r with
      | [] => return some (sign * (hours * 60))
      | _ =>
        let (minutes, r) ← digits 2 2 (← expect ':' r)
        if r = [] then return some (sign * (hours * 60 + minutes)) else none
    match cs.dropWhile isSpace with
    | ['Z'] => some (some 0)
    | '-' :: r => signed (-1) r
    | '+' :: r => signed 1 r
    | _ => none

/-- Reads a date or a moment. -/
def read? (cs : List Char) : Option Timestamp := do
  let (year, r) ← digits 4 4 cs
  let (month, r) ← digits 1 2 (← expect '-' r)
  let (day, r) ← digits 1 2 (← expect '-' r)
  if r = [] then return ⟨year, month, day, none, [], none⟩
  let (hour, r) ← digits 1 2 (← afterGap r)
  let (minute, r) ← digits 2 2 (← expect ':' r)
  let (second, r) ← digits 2 2 (← expect ':' r)
  let (fraction, r) := match r with
    | '.' :: r => (r.takeWhile Char.isDigit, r.dropWhile Char.isDigit)
    | r => ([], r)
  return ⟨year, month, day, some (hour, minute, second), fraction, ← readOffset r⟩

/-- Is this how a plain scalar writes a date or a moment? A date alone must have two digits for
month and day. -/
def isPlain (cs : List Char) : Bool :=
  match read? cs with
  | some t => t.time.isSome || cs.length == 10
  | none => false

/-- Millionths of a second: the first six digits of a fraction. -/
def microseconds (fraction : List Char) : Nat :=
  let first := fraction.take 6
  numberOf (first ++ List.replicate (6 - first.length) '0')

end Timestamp

end FatInstall.Yaml
