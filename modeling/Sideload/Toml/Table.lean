import Sideload.Data.Value

/-!
Tables under construction.

Whether a table may still get members depends on where it came from, so tables are kept apart from
finished values until the text ends.
-/

namespace Sideload.Toml

/-- Where a table came from: its own header, the header of a table below it, or a dotted key. -/
inductive Origin where
  | header
  | implied
  | dotted
  deriving DecidableEq

/-- What a name stands for: a value that is finished, a table, or a list of tables with headers. -/
inductive Item where
  | value (d : Data)
  | table (origin : Origin) (members : List (String × Item))
  | tables (elements : List (List (String × Item)))

abbrev Members := List (String × Item)

/-- Changes what a name stands for; a new name comes last. -/
def alterMember (name : String) (f : Option Item → Option Item) : Members → Option Members
  | [] => (f none).map fun i => [(name, i)]
  | (k, i) :: ms =>
    if k = name then (f (some i)).map fun i => (k, i) :: ms
    else (alterMember name f ms).map ((k, i) :: ·)

/-- Changes the last element of a list of tables. -/
def alterLast (f : Members → Option Members) : List Members → Option (List Members)
  | [] => none
  | [e] => (f e).map ([·])
  | e :: es => (alterLast f es).map (e :: ·)

/-- Changes the table that a header path leads to. Tables on the way that are missing are made. -/
def alterTable : (path : List String) → (Members → Option Members) → Members → Option Members
  | [], f, ms => f ms
  | k :: ks, f, ms => alterMember k (fun
    | none => (alterTable ks f []).map (.table .implied)
    | some (.table origin inner) => (alterTable ks f inner).map (.table origin)
    | some (.tables es) => (alterLast (alterTable ks f) es).map .tables
    | some (.value _) => none) ms

/-- A header for the table `name`: the table must not have been there, or only have been implied. -/
def openTable (name : String) : Members → Option Members :=
  alterMember name fun
    | none => some (.table .header [])
    | some (.table .implied inner) => some (.table .header inner)
    | some _ => none

/-- A header for one more element of the list `name`. -/
def openElement (name : String) : Members → Option Members :=
  alterMember name fun
    | none => some (.tables [[]])
    | some (.tables es) => some (.tables (es ++ [[]]))
    | some _ => none

/-- A new member. -/
def addMember (name : String) (i : Item) : Members → Option Members :=
  alterMember name fun
    | none => some i
    | some _ => none

/-- A new member under a dotted key. The table that it comes into has to come from dotted keys itself, and
no table on the way may have a header of its own. -/
def addDotted : (path : List String) → (name : String) → Item → Members → Option Members
  | [], name, i, ms => addMember name i ms
  | [k], name, i, ms => alterMember k (fun
    | none => some (.table .dotted [(name, i)])
    | some (.table .dotted inner) => (addMember name i inner).map (.table .dotted)
    | some _ => none) ms
  | k :: ks, name, i, ms => alterMember k (fun
    | none => (addDotted ks name i []).map (.table .dotted)
    | some (.table .header _) => none
    | some (.table origin inner) => (addDotted ks name i inner).map (.table origin)
    | some (.tables es) => (alterLast (addDotted ks name i) es).map .tables
    | some (.value _) => none) ms

mutual

/-- The finished value of an item. -/
def Item.data : Item → Data
  | .value d => d
  | .table _ ms => .record (membersData ms)
  | .tables es => .list (elementsData es)

def membersData : List (String × Item) → List (String × Data)
  | [] => []
  | (name, i) :: ms => (name, i.data) :: membersData ms

def elementsData : List (List (String × Item)) → List Data
  | [] => []
  | e :: es => .record (membersData e) :: elementsData es

end

end Sideload.Toml
