/-!
# TOML values and tables

`Value` is what a document means.  `Table` is a table under construction: it also knows whether it
was only implied by a longer key and whether it was made by a dotted key, because that decides
which later lines may add to it.
-/

namespace LiveUnits.Toml

/-- A TOML value.  Dates and times carry nothing but their kind. -/
inductive Value where
  | string (s : String)
  | integer (n : Int)
  /-- A floating point number. -/
  | float (x : Float)
  /-- A truth value. -/
  | boolean (b : Bool)
  /-- A date, a time, or both. -/
  | moment
  | array (elements : List Value)
  /-- A table, in the order in which its keys appeared. -/
  | table (fields : List (String × Value))
  deriving Inhabited

mutual

/-- What a key of a table under construction stands for. -/
inductive Item where
  /-- A finished value, inline tables included. -/
  | value (v : Value)
  /-- A table that later lines may still add to. -/
  | table (t : Table)
  /-- An array of tables; only its last element may still grow. -/
  | tables (ts : List Table)

/-- A table under construction. -/
inductive Table where
  /-- `implied`: no header names the table.  `dotted`: a dotted key made it. -/
  | mk (implied dotted : Bool) (fields : List (String × Item))

end

namespace Table

/-- Whether no header names the table. -/
def implied : Table → Bool
  | mk i _ _ => i

/-- Whether a dotted key made the table. -/
def dotted : Table → Bool
  | mk _ d _ => d

/-- The keys and what they stand for, in order. -/
def fields : Table → List (String × Item)
  | mk _ _ fs => fs

/-- What a key stands for. -/
def find? (t : Table) (key : String) : Option Item := t.fields.lookup key

/-- Gives a key another meaning, or adds it at the end. -/
def set (t : Table) (key : String) (item : Item) : Table :=
  let fs := t.fields
  mk t.implied t.dotted <|
    if fs.any (·.1 == key) then fs.map fun f => if f.1 == key then (key, item) else f
    else fs ++ [(key, item)]

/-- Removes a key. -/
def erase (t : Table) (key : String) : Table :=
  mk t.implied t.dotted (t.fields.filter (·.1 != key))

/-- Changes the table that a path of keys leads to.  Missing tables are made on the way.  A path of
a dotted key does not enter a table that a header names. -/
def modifyAt (dotted : Bool) (f : Table → Option Table) : List String → Table → Option Table
  | [], t => f t
  | k :: ks, t =>
    match t.find? k with
    | none => do
      let s ← modifyAt dotted f ks (mk true dotted [])
      some (t.set k (.table s))
    | some (.table s) =>
      if dotted && !s.implied then none
      else do
        let s' ← modifyAt dotted f ks s
        some (t.set k (.table s'))
    | some (.tables ts) =>
      match ts.getLast? with
      | none => none
      | some s => do
        let s' ← modifyAt dotted f ks s
        some (t.set k (.tables (ts.dropLast ++ [s'])))
    | some (.value _) => none

/-- Adds a key with a value; `path` holds the parts of a dotted key before the last. -/
def insert (path : List String) (key : String) (v : Value) (t : Table) : Option Table :=
  t.modifyAt true (fun s =>
    if s.dotted == path.isEmpty then none
    else if (s.find? key).isSome then none
    else some (s.set key (.value v))) path

/-- Opens the table a header names.  It must be new, or known only because a longer header implied
it. -/
def openTable (parents : List String) (key : String) (t : Table) : Option Table :=
  t.modifyAt false (fun s =>
    match s.find? key with
    | none => some (s.set key (.table (mk false false [])))
    | some (.table (mk true false fields)) =>
      some ((s.erase key).set key (.table (mk false false fields)))
    | some _ => none) parents

/-- Opens a new element of the array of tables a header names. -/
def openElement (parents : List String) (key : String) (t : Table) : Option Table :=
  t.modifyAt false (fun s =>
    match s.find? key with
    | none => some (s.set key (.tables [mk false false []]))
    | some (.tables ts) => some (s.set key (.tables (ts ++ [mk false false []])))
    | some _ => none) parents

end Table

mutual

/-- The value an item stands for. -/
def Item.toValue : Item → Value
  | .value v => v
  | .table t => .table t.toFields
  | .tables ts => .array (Table.toValues ts)

/-- The keys of a finished table with their values. -/
def Table.toFields : Table → List (String × Value)
  | .mk _ _ fields => Table.toPairs fields

/-- The values of a list of fields. -/
def Table.toPairs : List (String × Item) → List (String × Value)
  | [] => []
  | (k, i) :: rest => (k, i.toValue) :: Table.toPairs rest

def Table.toValues : List Table → List Value
  | [] => []
  | t :: rest => .table t.toFields :: Table.toValues rest

end

end LiveUnits.Toml
