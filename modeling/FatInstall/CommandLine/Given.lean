/-!
# What an option was given

An option that takes a value was given none, or a word. The mark that ends the options can stand
in place of the value, after an equals sign; it is not taken for a word then and leaves nothing.
-/

namespace FatInstall

/-- What an option of the command line was given. -/
inductive Given
  | absent
  | word (w : String)
  /-- The end mark in place of a word. -/
  | nothing
  deriving DecidableEq, Repr

namespace Given

/-- What was given, as messages show it. -/
def text : Given → String
  | absent => "None"
  | word w => w
  | nothing => "[]"

/-- The word, if there is one and it is not empty. -/
def word? : Given → Option String
  | word w => if w = "" then none else some w
  | _ => none

end Given

end FatInstall
