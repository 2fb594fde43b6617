import FatInstall.Value.Basic

/-!
# The order of a set

The members of a set are shown in the order of their slots in a table of at least twice as many
slots as members. A member's number decides its slot; where that is taken, nearby slots are tried,
and then others that depend on more digits of the number. Numbers that are equal as numbers have
one number here, whether they are whole or not.
-/

namespace FatInstall.Value

/-- The numbers of members are taken modulo this prime, and keep their sign. -/
def slotModulus : Nat := Nat.pow 2 61 - 1

/-- The number of infinity. -/
def infinitySlot : Int := 314159

/-- The number of a fraction with the given numerator and a power of two below it. -/
def fractionSlot (numerator : Int) (exponent : Nat) : Int :=
  let half := Nat.pow 2 60
  let n := numerator.natAbs * (half.pow (exponent % 61) % slotModulus) % slotModulus
  let signed : Int := if numerator < 0 then -n else n
  if signed = -1 then -2 else signed

/-- The number of a double that is no whole number. -/
def doubleSlot (bits : Nat) : Int :=
  let b := Decimal.Binary.ofBits bits
  let sign : Int := if b.negative then -1 else 1
  if bits / Nat.pow 2 52 % Nat.pow 2 11 = 2047 then sign * infinitySlot
  else fractionSlot (sign * b.ratio.num) b.ratio.den.log2

/-- The number of a member, for the kinds of members that have a fixed one. -/
def Key.slot? : Key → Option Int
  | .number n => some (fractionSlot n 0)
  | .fraction bits => some (doubleSlot bits.toNat)
  | .text t => if t.isEmpty then some 0 else none
  | .bytes bs => if bs = [] then some 0 else none
  | _ => none

/-- The number of slots of a table for so many members. -/
def slotCount (members : Nat) : Nat :=
  if members < 5 then 8 else Nat.pow 2 ((2 * members).log2 + 1)

/-- The slots to try for a member at most so many rounds: a slot and the nine after it, if there
are nine, and then the slot that follows by the rule. -/
def slotsToTry (count : Nat) : Nat → Nat → Nat → List Nat
  | 0, _, _ => []
  | rounds + 1, slot, more =>
    let near := if slot + 9 < count then List.range 10 else [0]
    let more := more / 32
    near.map (slot + ·) ++ slotsToTry count rounds ((slot * 5 + 1 + more) % count) more

/-- The table with a member in the first free slot of those to try. -/
def placeMember {α : Type} (count : Nat) (table : List (Nat × α)) (slot : Int) (a : α) :
    List (Nat × α) :=
  let start := (slot % Nat.pow 2 64).toNat
  let slots := slotsToTry count (count + 16) (start % count) start
  match slots.find? fun s => (table.lookup s).isNone with
  | some s => (s, a) :: table
  | none => table

/-- The members of a set in the order in which they are shown. Members without a fixed number keep
the order in which they were added. -/
def setOrder (members : List Value) : List Value :=
  match members.mapM fun v => v.key?.bind Key.slot? with
  | none => members
  | some slots =>
    let count := slotCount members.length
    let table := (slots.zip members).foldl (fun t e => placeMember count t e.1 e.2) []
    (table.mergeSort fun a b => a.1 ≤ b.1).map Prod.snd

end FatInstall.Value
