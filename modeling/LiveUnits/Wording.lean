import LiveUnits.Archive.Basic
import LiveUnits.Wasm.Malformation

/-!
# Wordings

Error texts of units and containers quote the reasons that reading archives and modules gives.  A
wording says how these reasons read; `Wording.plain` quotes them as they are.
-/

namespace LiveUnits

/-- How quoted reasons read. -/
structure Wording where
  /-- Why an archive cannot be read. -/
  archive : ArchiveFault → String
  /-- That the bytes of an archive entry are damaged. -/
  damage : String
  /-- Why bytes are no module. -/
  malformed : Wasm.Malformation → String

/-- Every reason in its own words. -/
def Wording.plain : Wording := ⟨ArchiveFault.message, "damaged entry", Wasm.Malformation.message⟩

end LiveUnits
