/-!
# The shortest decimal of a binary fraction

A finite double is `m · 2 ^ q`. Of the decimals that a reader rounds back to it, `shortest` gives
one with the fewest digits, and of those the nearest. It tries 1, 2, … 17 digits: on the grid of
decimals with that many digits only the two neighbours of the value need a look. All is done with
exact natural numbers.
-/

namespace FatInstall.Decimal

/-- A decimal: `digits · 10 ^ exponent`. -/
structure Scaled where
  digits : Nat
  exponent : Int
  deriving DecidableEq, Repr

/-- A double taken apart: its sign, and a whole number of units in the last place. -/
structure Binary where
  negative : Bool
  mantissa : Nat
  exponent : Int
  /-- The next smaller double is only half a unit away. -/
  atPowerOfTwo : Bool
  deriving DecidableEq, Repr

/-- The parts of a finite double. -/
def Binary.ofBits (bits : Nat) : Binary :=
  let fraction := bits % Nat.pow 2 52
  let biased : Nat := bits / Nat.pow 2 52 % Nat.pow 2 11
  { negative := bits / Nat.pow 2 63 % 2 = 1
    mantissa := if biased = 0 then fraction else fraction + Nat.pow 2 52
    exponent := if biased = 0 then -1074 else (biased : Int) - 1075
    atPowerOfTwo := fraction = 0 ∧ 1 < biased }

/-- A fraction of natural numbers. -/
structure Ratio where
  num : Nat
  den : Nat
  deriving DecidableEq, Repr

/-- Is the first fraction at most the second? -/
def Ratio.le (a b : Ratio) : Bool := a.num * b.den ≤ b.num * a.den

/-- Is the first fraction less than the second? -/
def Ratio.lt (a b : Ratio) : Bool := a.num * b.den < b.num * a.den

/-- `n · base ^ e` as a fraction. -/
def Ratio.power (n base : Nat) (e : Int) : Ratio :=
  if 0 ≤ e then ⟨n * base.pow e.toNat, 1⟩ else ⟨n, base.pow (-e).toNat⟩

/-- The distance between two fractions. -/
def Ratio.distance (a b : Ratio) : Ratio :=
  let x := a.num * b.den
  let y := b.num * a.den
  ⟨(x - y) + (y - x), a.den * b.den⟩

/-- A decimal as a fraction. -/
def Scaled.ratio (d : Scaled) : Ratio := .power d.digits 10 d.exponent

/-- The value of a double without its sign. -/
def Binary.ratio (b : Binary) : Ratio := .power b.mantissa 2 b.exponent

/-- Does a reader round the decimal to the double? The decimals that it rounds there lie between
the middles to the neighbouring doubles; a middle itself goes to an even mantissa. -/
def Binary.reads (b : Binary) (d : Scaled) : Bool :=
  let low := Ratio.power (4 * b.mantissa - if b.atPowerOfTwo then 1 else 2) 2 (b.exponent - 2)
  let high := Ratio.power (4 * b.mantissa + 2) 2 (b.exponent - 2)
  let x := d.ratio
  if b.mantissa % 2 = 0 then low.le x && x.le high else low.lt x && x.lt high

/-- The number of decimal digits. -/
def digitCount (n : Nat) : Nat := (Nat.toDigits 10 n).length

/-- The exponent `p` with `10 ^ (p - 1) ≤ x < 10 ^ p`, found from a first guess that is at most
one off. -/
def magnitude (x : Ratio) : Int :=
  let guess : Int := digitCount x.num - digitCount x.den
  if (Ratio.power 1 10 guess).le x then guess + 1 else guess

/-- The value's neighbour or neighbours, on the grid of multiples of `10 ^ k`, that read back. -/
def Binary.onGrid (b : Binary) (k : Int) : List Scaled :=
  let x := b.ratio
  let g := Ratio.power 1 10 k
  let below := x.num * g.den / (x.den * g.num)
  [⟨below, k⟩, ⟨below + 1, k⟩].filter fun d => d.digits != 0 && b.reads d

/-- The nearer of the decimals; of two that are equally near, the one with an even last digit. -/
def Binary.nearest (b : Binary) : List Scaled → Option Scaled
  | [] => none
  | [d] => some d
  | d :: e :: _ =>
    let near := d.ratio.distance b.ratio
    let far := e.ratio.distance b.ratio
    some (if near.lt far || (!far.lt near && d.digits % 2 = 0) then d else e)

/-- A decimal without zeros at the end of its digits. -/
def Scaled.reduce : Nat → Scaled → Scaled
  | 0, d => d
  | fuel + 1, d =>
    if d.digits % 10 = 0 ∧ d.digits ≠ 0 then reduce fuel ⟨d.digits / 10, d.exponent + 1⟩ else d

/-- The shortest decimal that reads back as the double. -/
def Binary.shortest (b : Binary) : Scaled :=
  if b.mantissa = 0 then ⟨0, 0⟩
  else
    let p := magnitude b.ratio
    let found := (List.range 17).findSome? fun (n : Nat) => b.nearest (b.onGrid (p - (n + 1 : Nat)))
    (found.getD ⟨b.mantissa, 0⟩).reduce 18

/-- How a decimal is laid out. -/
structure Layout where
  /-- The least power of ten of a first digit that is written without an exponent. -/
  leastPlain : Int
  /-- The power of ten of a first digit from which on an exponent is written. -/
  firstScientific : Int
  /-- The least number of digits of an exponent. -/
  exponentDigits : Nat
  infinity : String
  notANumber : String

/-- Zeros. -/
def zeros (n : Nat) : String := String.ofList (List.replicate n '0')

/-- A decimal without its sign. -/
def Layout.magnitudeText (l : Layout) (d : Scaled) : String :=
  let ds := Nat.toDigits 10 d.digits
  let count : Int := ds.length
  let first : Int := d.exponent + count - 1
  if l.leastPlain ≤ first ∧ first < l.firstScientific then
    if 0 ≤ d.exponent then
      String.ofList ds ++ zeros d.exponent.toNat ++ ".0"
    else if 0 ≤ first then
      String.ofList (ds.take (first.toNat + 1)) ++ "." ++ String.ofList (ds.drop (first.toNat + 1))
    else
      "0." ++ zeros (-first - 1).toNat ++ String.ofList ds
  else
    let mantissa := match ds with
      | [] => ""
      | [c] => c.toString
      | c :: r => c.toString ++ "." ++ String.ofList r
    let e := toString first.natAbs
    mantissa ++ "e" ++ (if first < 0 then "-" else "+") ++ zeros (l.exponentDigits - e.length) ++ e

/-- The text of a double given by its bits. -/
def Layout.text (l : Layout) (bits : Nat) : String :=
  let b := Binary.ofBits bits
  let sign := if b.negative then "-" else ""
  if bits / Nat.pow 2 52 % Nat.pow 2 11 = 2047 then
    if bits % Nat.pow 2 52 = 0 then sign ++ l.infinity else l.notANumber
  else if b.mantissa = 0 then sign ++ "0.0"
  else sign ++ l.magnitudeText b.shortest

end FatInstall.Decimal
