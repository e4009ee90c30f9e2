import LiveUnits.Text.Quoted

/-!
# Descriptions of values

The one-line notation in which values are shown to developers: records with named fields, lists,
sets and mappings between brackets, and optional values.  The parts are described already when they
are put together here.
-/

namespace LiveUnits.Description

/-- What stands between braces. -/
def braced (s : String) : String := "\x7b" ++ s ++ "\x7d"

def list (items : List String) : String := "[" ++ ", ".intercalate items ++ "]"

def set (items : List String) : String := braced (", ".intercalate items)

def mapping (items : List (String × String)) : String :=
  braced (", ".intercalate (items.map fun (k, v) => k ++ ": " ++ v))

/-- A value that may be absent. -/
def option : Option String → String
  | none => "None"
  | some s => "Some(" ++ s ++ ")"

/-- A record with its fields; `more` tells that it has others, which are not shown. -/
def record (name : String) (fields : List (String × String)) (more : Bool) : String :=
  let shown := fields.map (fun (k, v) => k ++ ": " ++ v) ++ if more then [".."] else []
  name ++ " " ++ braced (" " ++ ", ".intercalate shown ++ " ")

end LiveUnits.Description
