import LiveUnits.Shell.Launch

/-!
# Finding files
-/

namespace LiveUnits.Shell

/-- The program `find`. -/
def runFind (_ : Runner) (_ : Raw) (_ : List Raw) : Act Unit := done 0

end LiveUnits.Shell
