import FatInstall.Yaml.Graph.OfTokens
import FatInstall.Yaml.Graph.Value

/-!
# Documents

The value that a text denotes: null for an empty text, and otherwise the value of its only
document. All characters of the text must be allowed ones.
-/

namespace FatInstall.Yaml

/-- The value of a text, if so many collections can be inside one another. -/
def readWithin (room : Nat) (text : String) : Except Fault Value := do
  if !text.toList.all isAllowed then .error .malformed
  match ← Graph.ofText room text.toList with
  | (_, none) => return .null
  | (g, some root) => g.value root

/-- The room for collections that an interpreter has which is a few calls deep and can go a thousand
calls deep, each collection taking two; it is a few more or less by the kinds of the collections. -/
def usualRoom : Nat := 490

/-- The value of a text, with the usual room. -/
def read (text : String) : Except Fault Value := readWithin usualRoom text

end FatInstall.Yaml
