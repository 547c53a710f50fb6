/-!
# TOML tables

The values of a TOML document, and how tables grow while a document is read. Entries keep the order
in which their keys first appear.

A table remembers how it came about, because that decides what may still be added to it: a table
with a header of its own is complete with its section, a table written in braces is complete at
once, and the tables that a path passes through stay open to more paths of the same sort.

## Main definitions

* `Toml.Item` — a value, a table or an array of tables
* `Toml.Origin` — how a table came about
* `Toml.insertAt?` — an entry under a dotted key
* `Toml.updateAt?` — a change behind the path of a header
-/

namespace TokenHighlight.Toml

/-- How a table came about. -/
inductive Origin
  /-- By a header of its own, or as the whole document. -/
  | header
  /-- As a step on the path of a header. -/
  | path
  /-- As a step of a dotted key. -/
  | dotted
  /-- In braces, as a value. -/
  | braces
deriving DecidableEq, Repr

/-- What stands under a key. Numbers are not told apart from each other, and neither are dates and
times: no reader here asks for them. -/
inductive Item
  | string (s : String)
  | bool (b : Bool)
  | number
  | datetime
  | array (elements : List Item)
  | table (origin : Origin) (entries : List (String × Item))
  /-- An array of tables that headers have made, the last one open to more. -/
  | tables (elements : List (List (String × Item)))
deriving Repr

/-- The entries of a table, in the order of their keys' first appearance. -/
abbrev Entries := List (String × Item)

namespace Entries

/-- Puts an item in the place of the one under a key. -/
def replace (entries : Entries) (key : String) (item : Item) : Entries :=
  entries.map fun e => if e.1 = key then (key, item) else e

/-- Takes out the item under a key. -/
def erase (entries : Entries) (key : String) : Entries :=
  entries.filter (·.1 ≠ key)

/-- Adds an item under a key that is not there yet. -/
def add? (entries : Entries) (key : String) (item : Item) : Option Entries :=
  match entries.lookup key with
  | none => some (entries ++ [(key, item)])
  | some _ => none

/-- Changes the last one of several tables. -/
def updateLast? (f : Entries → Option Entries) : List Entries → Option (List Entries)
  | [] => none
  | [last] => (f last).map ([·])
  | first :: rest => (updateLast? f rest).map (first :: ·)

end Entries

/-- Adds an item under a dotted key, of which the last part is given apart. The tables on the way
are made as they are needed. One that is there already must have come from a dotted key; on the way
to a further one, the path of a header is as good, and of an array of tables the last is taken. -/
def insertAt? (key : String) (item : Item) : List String → Entries → Option Entries
  | [], entries => entries.add? key item
  | step :: path, entries =>
    match entries.lookup step with
    | none => do
      return entries ++ [(step, .table .dotted (← insertAt? key item path []))]
    | some (.table origin inner) =>
      if origin = .dotted ∨ (origin = .path ∧ path ≠ []) then do
        return entries.replace step (.table origin (← insertAt? key item path inner))
      else none
    | some (.tables elements) =>
      if path ≠ [] then do
        let elements ← Entries.updateLast? (insertAt? key item path) elements
        return entries.replace step (.tables elements)
      else none
    | some _ => none

/-- Changes the table at the end of a path of header steps. The tables on the way are made as they
are needed; any table may be passed through, and of an array of tables the last. -/
def updateAt? (f : Entries → Option Entries) : List String → Entries → Option Entries
  | [], entries => f entries
  | step :: path, entries =>
    match entries.lookup step with
    | none => do
      return entries ++ [(step, .table .path (← updateAt? f path []))]
    | some (.table .braces _) => none
    | some (.table origin inner) => do
      return entries.replace step (.table origin (← updateAt? f path inner))
    | some (.tables elements) => do
      let elements ← Entries.updateLast? (updateAt? f path) elements
      return entries.replace step (.tables elements)
    | some _ => none

end TokenHighlight.Toml
