/-
# TOML tables

A text builds up one tree of tables.  A table comes about in one of three ways, and this decides
what may be added to it later: by a header of its own, on the way of a longer header, or on the way
of a dotted key.  Values, and with them inline tables and arrays, are never added to.
-/
import Chatflow.Toml.Value

namespace Chatflow.Toml

/-- How a table came about. -/
inductive Origin where
  /-- It has a header of its own. -/
  | header
  /-- It is named on the way of a header. -/
  | implied
  /-- It is named on the way of a dotted key. -/
  | dotted
deriving DecidableEq, Repr

/-- Something with a key. -/
inductive Item where
  /-- A value that is finished. -/
  | value (v : Value)
  /-- A table. -/
  | table (origin : Origin) (members : List (String × Item))
  /-- A row of tables with the same double-bracketed header, last first. -/
  | tables (rows : List (List (String × Item)))
deriving Inhabited

/-- The items of a table. -/
abbrev Items := List (String × Item)

namespace Items

/-- Changes what stands under a key, or puts something there; nothing if that is not allowed. -/
def change (key : String) (f : Option Item → Option Item) : Items → Option Items
  | [] => (f none).map fun item => [(key, item)]
  | (k, item) :: rest =>
    if k = key then (f (some item)).map fun item => (k, item) :: rest
    else (change key f rest).map ((k, item) :: ·)

/-- Adds a value under a dotted key.  The tables on the way must have come about by dotted keys as
well; only above the last of them may there be one that a header implied. -/
def add (key : String) (v : Value) : List String → Items → Option Items
  | [], items => items.change key fun
    | none => some (.value v)
    | some _ => none
  | k :: path, items => items.change k fun
    | none => (add key v path []).map (.table .dotted)
    | some (.table .dotted inner) => (add key v path inner).map (.table .dotted)
    | some (.table .implied inner) =>
      if path = [] then none else (add key v path inner).map (.table .implied)
    | some _ => none

/-- Changes the table that a path of headers leads to, making those on the way as needed. -/
def within (f : Items → Option Items) : List String → Items → Option Items
  | [], items => f items
  | k :: path, items => items.change k fun
    | none => (within f path []).map (.table .implied)
    | some (.table origin inner) => (within f path inner).map (.table origin)
    | some (.tables (last :: rows)) => (within f path last).map fun last => .tables (last :: rows)
    | some _ => none

/-- Opens the table of a header.  It must not be there, or only be implied. -/
def openTable (path : List String) (key : String) (items : Items) : Option Items :=
  items.within (fun inner => inner.change key fun
    | none => some (.table .header [])
    | some (.table .implied members) => some (.table .header members)
    | some _ => none) path

/-- Opens a new table in the row of a double-bracketed header. -/
def openRow (path : List String) (key : String) (items : Items) : Option Items :=
  items.within (fun inner => inner.change key fun
    | none => some (.tables [[]])
    | some (.tables rows) => some (.tables ([] :: rows))
    | some _ => none) path

end Items

mutual

/-- The finished value of an item. -/
def Item.finish : Item → Value
  | .value v => v
  | .table _ members => .table (finishMembers members)
  | .tables rows => .array (finishRows [] rows)

/-- The finished members of a table. -/
def finishMembers : List (String × Item) → List (String × Value)
  | [] => []
  | (k, item) :: rest => (k, item.finish) :: finishMembers rest

/-- The finished tables of a row in front of those behind it. -/
def finishRows (behind : List Value) : List (List (String × Item)) → List Value
  | [] => behind
  | row :: rest => finishRows (.table (finishMembers row) :: behind) rest

end

/-- A line of a text. -/
inductive Statement where
  /-- The header of a table. -/
  | header (path : List String) (key : String)
  /-- The header of a table in a row. -/
  | rowHeader (path : List String) (key : String)
  /-- A key with its value. -/
  | entry (path : List String) (key : String) (v : Value)

/-- The tables built so far, and where entries go. -/
structure Builder where
  /-- The tables. -/
  items : Items := []
  /-- The table of the last header. -/
  current : List String := []

namespace Builder

/-- Obeys a statement. -/
def obey (b : Builder) : Statement → Option Builder
  | .header path key => do return ⟨← b.items.openTable path key, path ++ [key]⟩
  | .rowHeader path key => do return ⟨← b.items.openRow path key, path ++ [key]⟩
  | .entry path key v => do
    return { b with items := ← b.items.within (fun inner => inner.add key v path) b.current }

/-- The tree that statements build. -/
def build (statements : List Statement) : Option Value := do
  let b ← statements.foldlM obey {}
  return .table (finishMembers b.items)

end Builder

end Chatflow.Toml
