import FatInstall.Value.Calendar
import FatInstall.Decimal.Shortest
import FatInstall.Text.Basic

/-!
# Configuration values

What a configuration can hold: the values that a document of nested sequences and mappings
denotes. A mapping keeps the order in which its keys were first set. Equality of keys is equality
of what they denote, so a whole number, the double of the same size, and a truth value taken as
zero or one are one key. A double that is not a number equals nothing, not even itself.
-/

namespace FatInstall

/-- A configuration value. -/
inductive Value
  | null
  | bool (b : Bool)
  | int (n : Int)
  | float (x : Float)
  | text (t : Text)
  | bytes (bs : List UInt8)
  | date (d : Date)
  | moment (m : Moment)
  | list (items : List Value)
  /-- A row of fixed length. -/
  | row (items : List Value)
  /-- Different values, in the order in which they are shown. -/
  | set (items : List Value)
  | map (entries : List (Value × Value))
  /-- The list around this occurrence, in a list that contains itself. -/
  | listAgain
  /-- The mapping around this occurrence, in a mapping that contains itself. -/
  | mapAgain
  deriving Repr, Inhabited

namespace Value

/-- The whole number that a double is, if it is one. -/
def wholeOf (x : Float) : Option Int :=
  let bits := x.toBits.toNat
  if bits / Nat.pow 2 52 % Nat.pow 2 11 = 2047 then none
  else
    let b := Decimal.Binary.ofBits bits
    let r := b.ratio
    if r.num % r.den = 0 then
      some (if b.negative then -((r.num / r.den : Nat) : Int) else (r.num / r.den : Nat))
    else none

/-- The number that a truth value counts as. -/
def ofBool (b : Bool) : Int := if b then 1 else 0

/-- A value that can be a key, brought to the form that decides when two keys are one. -/
inductive Key
  | null
  | number (n : Int)
  | fraction (bits : UInt64)
  | text (t : Text)
  | bytes (bs : List UInt8)
  | date (d : Date)
  | moment (hasOffset : Bool) (instant : Int)
  deriving DecidableEq, Repr

/-- The key form of a value; containers are no keys, and what is not a number equals no key. -/
def key? : Value → Option Key
  | null => some .null
  | bool b => some (.number (ofBool b))
  | int n => some (.number n)
  | float x =>
    if x.isNaN then none
    else some (match wholeOf x with
      | some n => .number n
      | none => .fraction x.toBits)
  | text t => some (.text t)
  | bytes bs => some (.bytes bs)
  | date d => some (.date d)
  | moment m => some (.moment m.offset.isSome m.instant)
  | _ => none

/-- Are two values one key? -/
def sameKey (a b : Value) : Bool :=
  match a.key?, b.key? with
  | some x, some y => x == y
  | _, _ => false

/-- The entries with the key set to the value, where `same` tells which keys are one. A key that is
there keeps its place and its spelling; a new one goes to the end. -/
def setEntryBy {α β : Type} (same : α → α → Bool) (k : α) (v : β) : List (α × β) → List (α × β)
  | [] => [(k, v)]
  | (k', v') :: r => if same k' k then (k', v) :: r else (k', v') :: setEntryBy same k v r

/-- The entries with the key set to the value. -/
def setEntry (k v : Value) (entries : List (Value × Value)) : List (Value × Value) :=
  setEntryBy sameKey k v entries

/-- The entries after setting each of the second one after the other. -/
def setEntries (entries changes : List (Value × Value)) : List (Value × Value) :=
  changes.foldl (fun es c => setEntry c.1 c.2 es) entries

/-- The value of a key. -/
def lookup? (k : Value) : List (Value × Value) → Option Value
  | [] => none
  | (k', v) :: r => if sameKey k' k then some v else lookup? k r

/-- Does the value count as true? Zero, nothing and what is empty do not. -/
def isTrue : Value → Bool
  | null => false
  | bool b => b
  | int n => n != 0
  | float x => x != 0.0
  | text t => !t.isEmpty
  | bytes bs => bs != []
  | date _ | moment _ | listAgain | mapAgain => true
  | list items | row items | set items => !items.isEmpty
  | map entries => !entries.isEmpty

/-- Is it no value at all? -/
def isNull : Value → Bool
  | null => true
  | _ => false

/-- The kind of a value, as messages name it. -/
def kindName : Value → String
  | null => "NoneType"
  | bool _ => "bool"
  | int _ => "int"
  | float _ => "float"
  | text _ => "str"
  | bytes _ => "bytes"
  | date _ => "date"
  | moment _ => "datetime"
  | list _ | listAgain => "list"
  | row _ => "tuple"
  | set _ => "set"
  | map _ | mapAgain => "dict"

end Value

end FatInstall
