import FatInstall.Value.Basic
import FatInstall.Text.Quoted
import FatInstall.Decimal.Numeral

/-!
# The text of a value

Values are shown in two ways: `shown?` is the form used inside messages and inside containers,
where texts are quoted; `text?` is the form used when a value stands for a text. A whole number of
more than `Decimal.maxDigits` digits has no text.
-/

namespace FatInstall.Value

/-- Doubles are shown with the fewest digits, from `1e-04` to below `1e+16` without exponent, and
exponents have two digits. -/
def floatLayout : Decimal.Layout where
  leastPlain := -4
  firstScientific := 16
  exponentDigits := 2
  infinity := "inf"
  notANumber := "nan"

/-- The text of a double. -/
def floatText (x : Float) : String := floatLayout.text x.toBits.toNat

/-- The text of a whole number, unless it is too long. -/
def intText? (n : Int) : Option String :=
  let s := toString n
  if Decimal.maxDigits < (Nat.toDigits 10 n.natAbs).length then none else some s

/-- A day in a message. -/
def showDate (d : Date) : String := s!"datetime.date({d.year}, {d.month}, {d.day})"

/-- An offset in a message: whole days, and seconds that are not negative. -/
def showOffset (minutes : Int) : String :=
  if minutes = 0 then "datetime.timezone.utc"
  else if minutes < 0 then
    s!"datetime.timezone(datetime.timedelta(days=-1, seconds={86400 + minutes * 60}))"
  else s!"datetime.timezone(datetime.timedelta(seconds={minutes * 60}))"

/-- A moment in a message: seconds and microseconds are left out when they and all after them are
zero. -/
def showMoment (m : Moment) : String :=
  let small :=
    if m.microsecond ≠ 0 then [m.second, m.microsecond]
    else if m.second ≠ 0 then [m.second] else []
  let fields := [m.date.year, m.date.month, m.date.day, m.hour, m.minute] ++ small
  let zone := match m.offset with
    | some o => s!", tzinfo={showOffset o}"
    | none => ""
  let shown := String.intercalate ", " (fields.map toString)
  s!"datetime.datetime({shown}{zone})"

/-- The shown items of a row; one alone is followed by a comma. -/
def showRow : List String → String
  | [s] => s!"({s},)"
  | ss => "(" ++ String.intercalate ", " ss ++ ")"

mutual

/-- The value as messages show it. -/
def shown? : Value → Option String
  | null => some "None"
  | bool b => some (if b then "True" else "False")
  | int n => intText? n
  | float x => some (floatText x)
  | text t => some (Text.quoted t)
  | bytes bs => some (Text.quotedBytes bs)
  | date d => some (showDate d)
  | moment m => some (showMoment m)
  | list items => (showAll? items).map fun ss => "[" ++ String.intercalate ", " ss ++ "]"
  | row items => (showAll? items).map showRow
  | set [] => some "set()"
  | set items => (showAll? items).map fun ss => "\x7b" ++ String.intercalate ", " ss ++ "\x7d"
  | map entries =>
    (showEntries? entries).map fun ss => "\x7b" ++ String.intercalate ", " ss ++ "\x7d"
  | listAgain => some "[...]"
  | mapAgain => some "\x7b...\x7d"

/-- The shown values of a list. -/
def showAll? : List Value → Option (List String)
  | [] => some []
  | v :: r => do return (← shown? v) :: (← showAll? r)

/-- The shown entries of a mapping. -/
def showEntries? : List (Value × Value) → Option (List String)
  | [] => some []
  | (k, v) :: r => do
    let key ← shown? k
    let value ← shown? v
    return (key ++ ": " ++ value) :: (← showEntries? r)

end

/-- The value as a text: texts, days and moments stand for themselves. -/
def text? : Value → Option Text
  | text t => some t
  | date d => some d.text
  | moment m => some m.text
  | v => v.shown?.map Text.ofString

end FatInstall.Value
