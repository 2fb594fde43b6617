import FatInstall.Yaml.Timestamp

/-!
# Kinds of nodes

Each node has a tag. A plain scalar that is given none gets one from the way it is written: one of
the words for truth values or for nothing, a number in one of several notations, or a date.
Anything else is a text.
-/

namespace FatInstall.Yaml

/-- The kinds of nodes. -/
inductive Tag
  | null
  | bool
  | int
  | float
  | binary
  | timestamp
  | orderedMap
  | pairs
  | set
  | str
  | seq
  | map
  /-- The key whose value is merged into the mapping around it. -/
  | merge
  /-- The key of the default value of a mapping. -/
  | default
  | other (name : String)
  deriving DecidableEq, Repr

namespace Tag

/-- What the names of the standard kinds start with. -/
def standard : String := "tag:yaml.org,2002:"

/-- The kinds that have a short name. -/
def named : List (String × Tag) :=
  [("null", null), ("bool", bool), ("int", int), ("float", float), ("binary", binary),
    ("timestamp", timestamp), ("omap", orderedMap), ("pairs", pairs), ("set", set), ("str", str),
    ("seq", seq), ("map", map), ("merge", merge), ("value", default)]

/-- Is the kind one of scalars that have a value? -/
def isScalar : Tag → Bool
  | null | bool | int | float | binary | timestamp | str => true
  | _ => false

/-- The kind with the given full name. -/
def ofName (name : String) : Tag :=
  ((named.find? fun e => standard ++ e.1 == name).map Prod.snd).getD (other name)

end Tag

/-- The text without a sign at its start. -/
def dropSign : List Char → List Char
  | '-' :: r => r
  | '+' :: r => r
  | r => r

/-- Is the character a digit or an underscore? -/
def isDigitOrMark (c : Char) : Bool := c.isDigit || c == '_'

/-- Is it a number below sixty, of one digit or two? -/
def isSixtieth : List Char → Bool
  | [a] => a.isDigit
  | [a, b] => '0' ≤ a && a ≤ '5' && b.isDigit
  | _ => false

/-- Is it a row of digits and underscores that starts with a digit of the class? -/
def startsWithDigit (p : Char → Bool) : List Char → Bool
  | c :: r => p c && r.all isDigitOrMark
  | [] => false

/-- Are these the parts of a number of base sixty? -/
def isBaseSixty (first : Char → Bool) (parts : List (List Char)) : Bool :=
  match parts with
  | whole :: part :: more => startsWithDigit first whole && (part :: more).all isSixtieth
  | _ => false

/-- Does the text write a whole number? -/
def writesInt (cs : List Char) : Bool :=
  let digit19 (c : Char) : Bool := '1' ≤ c && c ≤ '9'
  match dropSign cs with
  | ['0'] => true
  | '0' :: 'b' :: r => r != [] && r.all fun c => c == '0' || c == '1' || c == '_'
  | '0' :: 'x' :: r =>
    r != [] && r.all fun c => c.isDigit || ('a' ≤ c && c ≤ 'f') || ('A' ≤ c && c ≤ 'F') || c == '_'
  | '0' :: r => r.all fun c => ('0' ≤ c && c ≤ '7') || c == '_'
  | r => startsWithDigit digit19 r || isBaseSixty digit19 (splitAt ':' r)

/-- Is it nothing, or the exponent of a double with its sign? -/
def isExponent : List Char → Bool
  | [] => true
  | e :: s :: r =>
    (e == 'e' || e == 'E') && (s == '-' || s == '+') && r != [] && r.all Char.isDigit
  | _ => false

/-- Does the text write a double? -/
def writesFloat (cs : List Char) : Bool :=
  let r := dropSign cs
  let whole := r.takeWhile fun c => isDigitOrMark c || c == ':'
  match cs, r.dropWhile fun c => isDigitOrMark c || c == ':' with
  | _, '.' :: after =>
    let rest := after.dropWhile isDigitOrMark
    if whole = [] then
      (".inf".toList == r || ".Inf".toList == r || ".INF".toList == r) ||
      (r == cs &&
        ((".nan".toList == r || ".NaN".toList == r || ".NAN".toList == r) ||
          ((after.head?.map Char.isDigit).getD false && isExponent rest)))
    else if whole.contains ':' then isBaseSixty Char.isDigit (splitAt ':' whole) && rest == []
    else startsWithDigit Char.isDigit whole && isExponent rest
  | _, _ => false

/-- The words for truth values. -/
def truthWords : List String :=
  ["yes", "Yes", "YES", "no", "No", "NO", "true", "True", "TRUE", "false", "False", "FALSE",
    "on", "On", "ON", "off", "Off", "OFF"]

/-- The words for nothing. -/
def nullWords : List String := ["~", "null", "Null", "NULL"]

/-- The tag that a plain scalar gets. A line feed at the end of the text does not count. -/
def Tag.ofPlain (text : Text) : Tag :=
  match text.chars? with
  | none => .str
  | some [] => .null
  | some cs =>
    let cs := if cs.getLast? = some '\n' then cs.dropLast else cs
    let word := String.ofList cs
    if truthWords.contains word then .bool
    else if writesFloat cs then .float
    else if writesInt cs then .int
    else if word = "<<" then .merge
    else if nullWords.contains word then .null
    else if Timestamp.isPlain cs then .timestamp
    else if word = "=" then .default
    else if word = "!" ∨ word = "&" ∨ word = "*" then .other (Tag.standard ++ "yaml")
    else .str

end FatInstall.Yaml
