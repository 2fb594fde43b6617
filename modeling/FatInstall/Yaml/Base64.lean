/-!
# Base 64

Bytes written with 64 characters, four characters for three bytes. Characters that are none of
them are skipped, and equals signs fill the last group.
-/

namespace FatInstall.Yaml.Base64

/-- The value of a character. -/
def value? (c : Char) : Option Nat :=
  if 'A' ≤ c ∧ c ≤ 'Z' then some (c.toNat - 'A'.toNat)
  else if 'a' ≤ c ∧ c ≤ 'z' then some (c.toNat - 'a'.toNat + 26)
  else if '0' ≤ c ∧ c ≤ '9' then some (c.toNat - '0'.toNat + 52)
  else if c = '+' then some 62
  else if c = '/' then some 63
  else none

/-- Reads characters. `place` is the number of characters read of the group, `left` the bits of
them that are not in a byte yet, `pads` the equals signs just before. -/
def readFrom (place left pads : Nat) : List Char → Option (List UInt8)
  | [] => if place = 0 then some [] else none
  | '=' :: r =>
    if 2 ≤ place ∧ 4 ≤ place + pads + 1 then some []
    else readFrom place left (if 2 ≤ place then pads + 1 else pads) r
  | c :: r =>
    match value? c with
    | none => readFrom place left pads r
    | some v =>
      match place with
      | 0 => readFrom 1 v 0 r
      | 1 => (readFrom 2 (v % 16) 0 r).map (UInt8.ofNat (left * 4 + v / 16) :: ·)
      | 2 => (readFrom 3 (v % 4) 0 r).map (UInt8.ofNat (left * 16 + v / 4) :: ·)
      | _ => (readFrom 0 0 0 r).map (UInt8.ofNat (left * 64 + v) :: ·)

/-- The bytes that the characters write, if the last group is complete. -/
def read (cs : List Char) : Option (List UInt8) := readFrom 0 0 0 cs

end FatInstall.Yaml.Base64
