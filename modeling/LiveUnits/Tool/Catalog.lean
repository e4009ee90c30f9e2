import LiveUnits.Tool.Editor
import LiveUnits.Tool.Files
import LiveUnits.Tool.Numbers
import LiveUnits.Tool.Search
import LiveUnits.Tool.System

/-!
# The catalogue of tools

The tools by the names under which they are called.
-/

namespace LiveUnits.Tool

open Shell

/-- The tools and their names. -/
def catalogue : List (String × Program) := [
  ("arch", tells "x86_64"), ("base64", base64), ("basename", basename), ("cat", cat), ("chmod", chmod),
  ("cmp", cmp), ("comm", comm), ("cp", cp), ("cut", cut), ("diff", diff), ("dirname", dirname),
  ("echo", echo), ("expand", expand), ("expr", expr), ("factor", factor), ("false", giveUp),
  ("fold", fold), ("grep", grep), ("head", head), ("id", identity), ("join", join), ("ln", ln),
  ("ls", ls), ("mkdir", mkdir), ("mv", mv), ("nl", nl), ("nproc", tells "1"), ("od", od),
  ("paste", paste), ("printenv", printenv), ("printf", printf), ("pwd", pwd), ("readlink", readlink),
  ("realpath", realpath), ("rev", rev), ("rm", rm), ("rmdir", rmdir), ("sed", sed), ("seq", seq),
  ("sleep", sleep), ("sort", sort), ("stat", stat), ("sync", succeed), ("tac", tac), ("tail", tail),
  ("tee", tee), ("touch", touch), ("tr", tr), ("true", succeed), ("truncate", truncate), ("tty", tty),
  ("uname", uname), ("uniq", uniq), ("wc", wc), ("whoami", whoami), ("yes", yes)]

end LiveUnits.Tool
