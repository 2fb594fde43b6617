import FatInstall.Text.Basic
import FatInstall.Text.Printable

/-!
# Quoted texts

How a text or a sequence of bytes is shown inside a message: between single quotes, or between
double quotes when it holds a single and no double one, with escapes for what cannot be shown.
-/

namespace FatInstall.Text

/-- The last `width` hexadecimal digits of a number, in lower case. -/
def hexDigits : Nat → Nat → List Char
  | 0, _ => []
  | width + 1, n => hexDigits width (n / 16) ++ [Nat.digitChar (n % 16)]

/-- The quote around a text that holds these characters. -/
def quoteFor (hasSingle hasDouble : Bool) : Char :=
  if hasSingle && !hasDouble then '"' else '\''

/-- A character inside quotes. -/
def escapeChar (quote c : Char) : List Char :=
  if c = quote || c = '\\' then ['\\', c]
  else if c = '\n' then ['\\', 'n']
  else if c = '\r' then ['\\', 'r']
  else if c = '\t' then ['\\', 't']
  else if isPrintable c then [c]
  else if c.toNat < 0x100 then '\\' :: 'x' :: hexDigits 2 c.toNat
  else if c.toNat < 0x10000 then '\\' :: 'u' :: hexDigits 4 c.toNat
  else '\\' :: 'U' :: hexDigits 8 c.toNat

/-- A code point inside quotes: a surrogate is always written as an escape. -/
def escapePoint (quote : Char) : CodePoint → List Char
  | .char c => escapeChar quote c
  | .surrogate offset => '\\' :: 'u' :: hexDigits 4 (0xD800 + offset)

/-- A text in quotes. -/
def quoted (t : Text) : String :=
  let q := quoteFor (t.points.contains (.char '\'')) (t.points.contains (.char '"'))
  String.ofList (q :: t.points.flatMap (escapePoint q) ++ [q])

/-- A byte inside quotes: all but the printable ASCII characters are escaped. -/
def escapeByte (quote : Char) (b : UInt8) : List Char :=
  let c := Char.ofNat b.toNat
  if c = quote || c = '\\' then ['\\', c]
  else if c = '\n' then ['\\', 'n']
  else if c = '\r' then ['\\', 'r']
  else if c = '\t' then ['\\', 't']
  else if 0x20 ≤ b && b < 0x7F then [c]
  else '\\' :: 'x' :: hexDigits 2 b.toNat

/-- A sequence of bytes in quotes, marked by a `b` before them. -/
def quotedBytes (bs : List UInt8) : String :=
  let q := quoteFor (bs.contains 0x27) (bs.contains 0x22)
  String.ofList ('b' :: q :: bs.flatMap (escapeByte q) ++ [q])

end FatInstall.Text
