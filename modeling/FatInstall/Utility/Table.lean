import FatInstall.Utility.Condition
import FatInstall.Utility.Files
import FatInstall.Utility.Filter
import FatInstall.Utility.Format

/-!
# The table of small programs

This serves runs of real processes only (`World.Processes`).
-/

namespace FatInstall.Utility

/-- The small programs, by name. -/
def programs : List (String × Program) :=
  [("true", fun c => c.ended 0), ("false", fun c => c.ended 1), ("echo", echoPlain),
    ("printf", printf printMessage), ("cat", cat), ("head", head), ("tail", tail), ("wc", wc),
    ("seq", seq),
    ("tr", tr), ("sort", sort), ("tee", tee), ("mkdir", mkdir), ("rmdir", rmdir),
    ("touch", touch), ("rm", rm), ("cp", cp), ("mv", mv), ("ln", ln), ("ls", ls), ("pwd", pwd),
    ("readlink", readlink), ("basename", basename), ("dirname", dirname),
    ("printenv", printenv), ("sleep", fun c => c.ended 0), ("sync", fun c => c.ended 0),
    ("test", fun c => test (conditionMessage c) false c),
    ("[", fun c => test (conditionMessage c) true c)]

end FatInstall.Utility
