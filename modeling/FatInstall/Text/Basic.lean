/-!
# Texts

A text is a list of code points. Nearly all of them are characters; an escape in a settings file
can also write a surrogate, a code point that is no character. A text with a surrogate has no
form in UTF-8. As the name of a file it still has a form in bytes if all its surrogates come from
the range that stands for single bytes, U+DC80 to U+DCFF.
-/

namespace FatInstall

/-- A code point: a character, or a surrogate, given by its distance from U+D800. -/
inductive CodePoint
  | char (c : Char)
  | surrogate (offset : Fin 0x800)
  deriving DecidableEq, Repr

namespace CodePoint

instance : Coe Char CodePoint := ⟨char⟩

/-- The number of a code point. -/
def toNat : CodePoint → Nat
  | char c => c.toNat
  | surrogate offset => 0xD800 + offset

/-- The code point of a number, which is below 0x110000. -/
def ofNat (n : Nat) : CodePoint :=
  if h : 0xD800 ≤ n ∧ n < 0xE000 then surrogate ⟨n - 0xD800, by omega⟩ else char (Char.ofNat n)

/-- The character that a code point is, if it is one. -/
def char? : CodePoint → Option Char
  | char c => some c
  | surrogate _ => none

/-- Is it a character of the class? -/
def is (p : Char → Bool) : CodePoint → Bool
  | char c => p c
  | surrogate _ => false

/-- The bytes of a code point in a file name, if it can stand in one. -/
def bytes? : CodePoint → Option (List UInt8)
  | char c => some (String.singleton c).toUTF8.toList
  | surrogate offset =>
    if 0x480 ≤ offset.val ∧ offset.val < 0x500 then some [UInt8.ofNat (offset.val - 0x400)]
    else none

end CodePoint

/-- A text. -/
structure Text where
  points : List CodePoint
  deriving DecidableEq, Repr, Inhabited

namespace Text

/-- The text of characters. -/
def ofList (cs : List Char) : Text := ⟨cs.map .char⟩

/-- The text of a string. -/
def ofString (s : String) : Text := ofList s.toList

instance : Coe String Text := ⟨ofString⟩

/-- The text without code points. -/
def empty : Text := ⟨[]⟩

/-- Does the text have no code points? -/
def isEmpty (t : Text) : Bool := t.points.isEmpty

/-- One text after the other. -/
def append (t u : Text) : Text := ⟨t.points ++ u.points⟩

instance : Append Text := ⟨append⟩

theorem points_append (t u : Text) : (t ++ u).points = t.points ++ u.points := rfl

/-- Texts one after the other. -/
def join (ts : List Text) : Text := ⟨ts.flatMap points⟩

/-- Texts one after the other with another between each two of them. -/
def intercalate (separator : Text) (ts : List Text) : Text :=
  ⟨separator.points.intercalate (ts.map points)⟩

/-- The characters of a text that has no surrogates. -/
def chars? (t : Text) : Option (List Char) := t.points.mapM CodePoint.char?

/-- The string of a text that has no surrogates. -/
def string? (t : Text) : Option String := t.chars?.map String.ofList

/-- The text as a string, with the replacement character in place of each surrogate. -/
def replaced (t : Text) : String :=
  String.ofList (t.points.map fun p => p.char?.getD '\ufffd')

/-- The bytes of a text as a file name, if it can be one. -/
def bytes? (t : Text) : Option (List UInt8) := (t.points.mapM CodePoint.bytes?).map List.flatten

/-- The number of bytes of a text as a file name. -/
def byteSize (t : Text) : Nat :=
  (t.points.flatMap fun p => p.bytes?.getD []).length

/-- The first character of bytes in UTF-8, and the bytes after it. -/
def splitChar (bs : List UInt8) : Option (Char × List UInt8) :=
  [1, 2, 3, 4].findSome? fun n =>
    match (String.fromUTF8? ⟨(bs.take n).toArray⟩).map String.toList with
    | some [c] => some (c, bs.drop n)
    | _ => none

/-- The code points of at most so many in bytes. A byte that starts no character is a surrogate. -/
def pointsOfBytes : Nat → List UInt8 → List CodePoint
  | 0, _ | _, [] => []
  | fuel + 1, b :: bs =>
    match splitChar (b :: bs) with
    | some (c, rest) => .char c :: pointsOfBytes fuel rest
    | none => CodePoint.ofNat (0xDC00 + b.toNat) :: pointsOfBytes fuel bs

/-- The text that bytes are as a file name. -/
def ofBytes (bs : List UInt8) : Text := ⟨pointsOfBytes bs.length bs⟩

/-- The text as the host has it for a file name: surrogates that together are the bytes of a
character become that character. Some texts cannot be a file name. -/
def fileName? (t : Text) : Option Text :=
  if (t.points.all fun p => p.char?.isSome) then some t else t.bytes?.map ofBytes

end Text

end FatInstall
