/-!
# AtTemplate.Toml.Value

TOML values and the rules by which headers and dotted keys build tables.  A table may be
extended only by the kind of line that made it: one between braces never, one with a header
of its own not by dotted keys, and one made by dotted keys not by a header.
-/

namespace AtTemplate.Toml

/-- Where a value stands: the text from its first character on, and the text behind it. -/
structure Extent where
  start : List Char
  stop : List Char

/-- One part of a key, and where it stands. -/
structure Key where
  name : String
  extent : Extent

/-- What made a table. -/
inductive Origin where
  /-- It is written between braces. -/
  | braces
  /-- It has a header of its own. -/
  | header
  /-- The header of a table within it names it. -/
  | implied
  /-- A dotted key names it. -/
  | dotted
  deriving DecidableEq, Repr

/-- A TOML value. -/
inductive Value where
  | string (s : String)
  | integer (n : Int)
  | float (x : Float)
  | boolean (b : Bool)
  | datetime
  | array (items : List (Extent × Value))
  /-- The tables that have the same header in double brackets. -/
  | tables (items : List (Extent × Value))
  | table (origin : Origin) (entries : List (String × Extent × Value))

/-- A table: what made it, and its entries in the order in which they were made. -/
structure Table where
  origin : Origin
  entries : List (String × Extent × Value)

namespace Table

/-- The entry of a key. -/
def find? (t : Table) (key : String) : Option (Extent × Value) :=
  (t.entries.find? (·.1 = key)).map (·.2)

/-- The table with one more entry at its end. -/
def append (t : Table) (key : String) (extent : Extent) (value : Value) : Table :=
  { t with entries := t.entries ++ [(key, extent, value)] }

/-- The table with another value for a key that it has. -/
def replace (t : Table) (key : String) (extent : Extent) (value : Value) : Table :=
  { t with entries := t.entries.map fun e => if e.1 = key then (key, extent, value) else e }

/-- The table without a key. -/
def erase (t : Table) (key : String) : Table :=
  { t with entries := t.entries.filter (·.1 ≠ key) }

/-- Whether the table may go on under a path that dotted keys name. -/
def isOpen (origin : Origin) (isDotted : Bool) : Bool :=
  match origin with
  | .braces => false
  | .header => !isDotted
  | .implied | .dotted => true

/-- Changes the table at the end of a path; `isDotted` tells a dotted key from a header.
Tables that the path lacks are made on the way and stand where their key does, and of several
tables under one header the last is meant. -/
def descend (isDotted : Bool) (change : Table → Option (Table × α)) :
    List Key → Table → Option (Table × α)
  | [], t => change t
  | key :: path, t =>
    match t.find? key.name with
    | none => do
      let (child, a) ← descend isDotted change path ⟨if isDotted then .dotted else .implied, []⟩
      return (t.append key.name key.extent (.table child.origin child.entries), a)
    | some (extent, .table origin entries) => do
      guard (isOpen origin isDotted)
      let (child, a) ← descend isDotted change path ⟨origin, entries⟩
      return (t.replace key.name extent (.table child.origin child.entries), a)
    | some (extent, .tables items) =>
      match items.getLast? with
      | some (place, .table origin entries) => do
        let (child, a) ← descend isDotted change path ⟨origin, entries⟩
        let last := (place, .table child.origin child.entries)
        return (t.replace key.name extent (.tables (items.dropLast ++ [last])), a)
      | _ => none
    | some _ => none

/-- Enters a value under a dotted key, whose last part is `key`.  The key must be new, and a
table that headers made is not entered by dots. -/
def enter (path : List Key) (key : String) (extent : Extent) (value : Value) (t : Table) :
    Option Table :=
  (descend true (fun t => do
    guard ((t.origin = .dotted) = (path ≠ []))
    guard (t.find? key).isNone
    return (t.append key extent value, ())) path t).map (·.1)

end Table

/-- A document as far as it is read: the tables that are complete, and the one whose lines
follow, with its header. -/
structure Document where
  root : Table
  path : List Key
  isOneOfSeveral : Bool
  extent : Extent
  current : Table

namespace Document

/-- The document before its first line. -/
def empty : Document :=
  ⟨⟨.header, []⟩, [], false, ⟨[], []⟩, ⟨.header, []⟩⟩

/-- Enters the current table into the document. -/
def closeTable (d : Document) : Option Table :=
  let value : Value := .table d.current.origin d.current.entries
  match d.path.getLast? with
  | none => some d.current
  | some key =>
    (Table.descend false (fun parent =>
      match parent.find? key.name with
      | none =>
        let entry := if d.isOneOfSeveral then .tables [(d.extent, value)] else value
        some (parent.append key.name d.extent entry, ())
      | some (extent, .tables items) =>
        if d.isOneOfSeveral then
          let extent := { extent with stop := d.extent.stop }
          some (parent.replace key.name extent (.tables (items ++ [(d.extent, value)])), ())
        else none
      | some _ => none) d.path.dropLast d.root).map (·.1)

/-- Begins a table with a header of its own.  What headers of tables within it have made so far
belongs to it. -/
def openTable (path : List Key) (extent : Extent) (d : Document) : Option Document := do
  let root ← d.closeTable
  let key ← path.getLast?
  let (root, entries) ← Table.descend false (fun parent =>
    match parent.find? key.name with
    | none => some (parent, [])
    | some (_, .table .implied entries) => some (parent.erase key.name, entries)
    | some _ => none) path.dropLast root
  return ⟨root, path, false, extent, ⟨.header, entries⟩⟩

/-- Begins one of the tables that share a header. -/
def openOneOfSeveral (path : List Key) (extent : Extent) (d : Document) : Option Document := do
  let root ← d.closeTable
  let key ← path.getLast?
  let (root, _) ← Table.descend false (fun parent =>
    match parent.find? key.name with
    | none | some (_, .tables _) => some (parent, ())
    | some _ => none) path.dropLast root
  return ⟨root, path, true, extent, ⟨.header, []⟩⟩

/-- Enters a value into the current table. -/
def enter (path : List Key) (key : String) (extent : Extent) (value : Value) (d : Document) :
    Option Document := do
  let current ← d.current.enter path key extent value
  return { d with current := current, extent := { d.extent with stop := extent.stop } }

end Document

end AtTemplate.Toml
