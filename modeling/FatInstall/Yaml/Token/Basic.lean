import FatInstall.Yaml.Cursor

/-!
# Tokens

The tokens of a document. The start and the end of a block collection are told by the columns of
its lines; they are tokens here like the brackets of the flow form.
-/

namespace FatInstall.Yaml

/-- A line for the reader of the document. -/
inductive Directive
  /-- The version of the form. -/
  | version (major : Nat)
  /-- A handle for the start of tags. -/
  | handle (handle start : String)
  /-- Anything else; it is ignored. -/
  | other
  deriving DecidableEq, Repr

/-- A token. -/
inductive Token
  | directive (d : Directive)
  | documentStart
  | documentEnd
  | blockSequenceStart
  | blockMappingStart
  | blockEnd
  | flowSequenceStart
  | flowSequenceEnd
  | flowMappingStart
  | flowMappingEnd
  | flowEntry
  | blockEntry
  | key
  | value
  | alias (name : String)
  | anchor (name : String)
  | tag (handle : Option String) (rest : String)
  /-- A scalar; a plain one is written without quotes or block header. -/
  | scalar (text : Text) (isPlain : Bool)
  | streamEnd
  deriving DecidableEq, Repr

end FatInstall.Yaml
