import Sideload.Path

/-!
Trees of files.

A node is a file, a link or a directory; a location is the list of names that leads to a node from the
top. `get?` is the view: every change is described by what it does to `get?`.
-/

namespace Sideload

/-- A file, a link, or a directory with its entries. -/
inductive Node where
  | file (content : ByteArray) (executable : Bool)
  | link (target : Path)
  | dir (entries : List (Name × Node))
  deriving Inhabited

/-- The names that lead to a node from the top. -/
abbrev Location := List Name

namespace Node

def isDir : Node → Bool
  | dir _ => true
  | _ => false

def isFile : Node → Bool
  | file _ _ => true
  | _ => false

def isLink : Node → Bool
  | link _ => true
  | _ => false

/-- The entries of a directory; nothing else has entries. -/
def entries : Node → List (Name × Node)
  | dir es => es
  | _ => []

/-- The node that an entry list has under a name. -/
def lookup? (name : Name) : List (Name × Node) → Option Node
  | [] => none
  | (k, n) :: es => if name = k then some n else lookup? name es

def child? (n : Node) (name : Name) : Option Node := lookup? name n.entries

/-- The node at a location. -/
def get? : Node → Location → Option Node
  | n, [] => some n
  | n, name :: loc => (n.child? name).bind fun m => m.get? loc

/-- An entry list with `name` standing for `m`; a new name comes last. -/
def setEntry (name : Name) (m : Node) : List (Name × Node) → List (Name × Node)
  | [] => [(name, m)]
  | (k, n) :: es => if name = k then (k, m) :: es else (k, n) :: setEntry name m es

/-- Changes the node at a location; where there is no node, nothing changes. -/
def update (f : Node → Node) : Location → Node → Node
  | [], n => f n
  | name :: loc, n =>
    match n, n.child? name with
    | dir es, some m => dir (setEntry name (m.update f loc) es)
    | n, _ => n

/-- Puts `m` under a name of the directory at `loc`. -/
def insert (n : Node) (loc : Location) (name : Name) (m : Node) : Node :=
  n.update (fun d => match d with
    | dir es => dir (setEntry name m es)
    | d => d) loc

/-- Takes a name out of the directory at `loc`. -/
def remove (n : Node) (loc : Location) (name : Name) : Node :=
  n.update (fun d => match d with
    | dir es => dir (es.filter fun e => e.1 ≠ name)
    | d => d) loc

/-! ### What the changes do to the view -/

@[simp] theorem lookup?_setEntry_self (name : Name) (m : Node) (es : List (Name × Node)) :
    lookup? name (setEntry name m es) = some m := by
  induction es with
  | nil => simp [setEntry, lookup?]
  | cons e es ih =>
    obtain ⟨k, n⟩ := e
    by_cases h : name = k
    · simp [setEntry, lookup?, h]
    · simp [setEntry, lookup?, h, ih]

theorem lookup?_setEntry_of_ne {name other : Name} (h : other ≠ name) (m : Node)
    (es : List (Name × Node)) : lookup? other (setEntry name m es) = lookup? other es := by
  induction es with
  | nil => simp [setEntry, lookup?, h]
  | cons e es ih =>
    obtain ⟨k, n⟩ := e
    by_cases hk : name = k
    · subst hk
      simp [setEntry, lookup?, h]
    · by_cases ho : other = k
      · simp [setEntry, lookup?, hk, ho]
      · simp [setEntry, lookup?, hk, ho, ih]

theorem lookup?_filter_self (name : Name) (es : List (Name × Node)) :
    lookup? name (es.filter fun e => e.1 ≠ name) = none := by
  induction es with
  | nil => rfl
  | cons e es ih =>
    obtain ⟨k, n⟩ := e
    by_cases h : k = name
    · subst h
      simpa using ih
    · simpa [h, lookup?, Ne.symm h] using ih

theorem lookup?_filter_of_ne {name other : Name} (h : other ≠ name) (es : List (Name × Node)) :
    lookup? other (es.filter fun e => e.1 ≠ name) = lookup? other es := by
  induction es with
  | nil => rfl
  | cons e es ih =>
    obtain ⟨k, n⟩ := e
    by_cases hk : k = name
    · subst hk
      simpa [lookup?, h] using ih
    · by_cases ho : other = k
      · simp [hk, lookup?, ho]
      · simpa [hk, lookup?, ho] using ih

@[simp] theorem get?_nil (n : Node) : n.get? [] = some n := by
  cases n <;> rfl

theorem get?_cons (n : Node) (name : Name) (loc : Location) :
    n.get? (name :: loc) = (n.child? name).bind fun m => m.get? loc := by
  cases n <;> rfl

end Node

end Sideload
