import FatInstall.Text.Basic

/-!
# Blank edges

Which characters are white space, and how a text loses the characters of a class at its edges.
The messages of failed commands are shown without their blank edges, and a directory inside an
image is normalised by removing the slashes at its edges.
-/

namespace FatInstall.Text

/-- White space: the characters with the Unicode property `White_Space`, and the four information
separators U+001C to U+001F. -/
def isBlank (c : Char) : Bool :=
  let n := c.toNat
  (0x9 ≤ n && n ≤ 0xD) || (0x1C ≤ n && n ≤ 0x20) || n == 0x85 || n == 0xA0 || n == 0x1680 ||
    (0x2000 ≤ n && n ≤ 0x200A) || n == 0x2028 || n == 0x2029 || n == 0x202F || n == 0x205F ||
    n == 0x3000

/-- The list without the elements of the class at its end. -/
def trimEnd {α : Type} (p : α → Bool) (xs : List α) : List α :=
  (xs.reverse.dropWhile p).reverse

/-- The list without the elements of the class at its two ends. -/
def trim {α : Type} (p : α → Bool) (xs : List α) : List α :=
  trimEnd p (xs.dropWhile p)

/-- The text without white space at its edges. -/
def strip (t : Text) : Text := ⟨trim (·.is isBlank) t.points⟩

/-- Is the code point a slash? -/
def isSlash (p : CodePoint) : Bool := p == .char '/'

/-- The text without slashes at its edges. -/
def stripSlashes (t : Text) : Text := ⟨trim isSlash t.points⟩

/-- The text without slashes at its end. -/
def stripSlashesEnd (t : Text) : Text := ⟨trimEnd isSlash t.points⟩

/-- The text without slashes at its start. -/
def stripSlashesStart (t : Text) : Text := ⟨t.points.dropWhile isSlash⟩

end FatInstall.Text
