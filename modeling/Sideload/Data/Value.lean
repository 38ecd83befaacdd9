/-!
Values of data formats.

Records of the program are read from values, and values are read from text in one of two formats. A
struct is a record with members by name, or a list of its fields in order.
-/

namespace Sideload

/-- A value of a data format. -/
inductive Data where
  | null
  | bool (b : Bool)
  /-- A number as it was written. -/
  | number (text : String)
  | string (s : String)
  | list (items : List Data)
  | record (members : List (String × Data))
  /-- A date or time as it was written. -/
  | moment (text : String)
  /-- Something that may be passed over but not read: its text names no characters. -/
  | unreadable
  deriving Inhabited

namespace Data

def string? : Data → Option String
  | string s => some s
  | _ => none

def bool? : Data → Option Bool
  | bool b => some b
  | _ => none

def items? : Data → Option (List Data)
  | list items => some items
  | _ => none

def members? : Data → Option (List (String × Data))
  | record members => some members
  | _ => none

/-- The members with a name, in order. -/
def membersNamed (name : String) (members : List (String × Data)) : List Data :=
  (members.filter (·.1 = name)).map (·.2)

/-- The member of a record with a name; the last one if there are several. -/
def get? (d : Data) (name : String) : Option Data :=
  d.members?.bind fun ms => (membersNamed name ms).getLast?

/-- One field for each name: what the record has under it, or what stands in its place in a list. A name
given twice is refused, other names are passed over. `extra` says whether a list may be longer than the
names. -/
def fields? (names : List String) (extra : Bool) : Data → Option (List (Option Data))
  | record members => names.mapM fun name =>
    match membersNamed name members with
    | [] => some none
    | [d] => some (some d)
    | _ => none
  | list items =>
    if items.length ≤ names.length ∨ extra then some ((List.range names.length).map (items[·]?))
    else none
  | moment _ => some (names.map fun _ => none)
  | _ => none

end Data

end Sideload
