/-!
Values of a TOML document and the rules by which tables grow. A table remembers how it came to be,
because that decides whether a later line may add to it.
-/

namespace CallStudy.Toml

/-- How a table came to be. -/
inductive Origin where
  /-- By a heading of its own. -/
  | heading
  /-- By a heading of a table inside it. -/
  | implied
  /-- By a key with dots. -/
  | dotted
  /-- By braces. -/
  | inline
  deriving Repr, DecidableEq

inductive Value where
  | text (s : String)
  | integer (n : Int)
  | real (x : Float)
  | boolean (b : Bool)
  | datetime
  | array (items : List Value)
  | table (origin : Origin) (entries : List (String × Value))
  /-- Tables that share a heading in double brackets. -/
  | tables (elements : List (List (String × Value)))
  deriving Inhabited

/-- The entries of a table in the order in which its keys first came up. -/
abbrev Entries := List (String × Value)

def Value.kind : Value → String
  | text _ => "string"
  | integer _ => "integer"
  | real _ => "float"
  | boolean _ => "boolean"
  | datetime => "datetime"
  | array _ => "array"
  | table .inline _ => "inline table"
  | table _ _ => "table"
  | tables _ => "array of tables"

namespace Entries

def set (key : String) (value : Value) : Entries → Entries
  | [] => [(key, value)]
  | (k, v) :: rest => if k = key then (k, value) :: rest else (k, v) :: set key value rest

def erase (key : String) (entries : Entries) : Entries := entries.filter (·.1 ≠ key)

/-- Changes the last of some tables. -/
def updateLast {α : Type} (f : Entries → Option (Entries × α)) :
    List Entries → Option (List Entries × α)
  | [] => none
  | [last] => (f last).map fun (last, a) => ([last], a)
  | first :: rest => (updateLast f rest).map fun (rest, a) => (first :: rest, a)

/-- Changes the table that a heading's path leads to. Tables missing on the way are implied; in a
list of tables the path goes on in the last one. -/
def updateAt {α : Type} (f : Entries → Option (Entries × α)) :
    List String → Entries → Option (Entries × α)
  | [], entries => f entries
  | key :: path, entries =>
    match entries.lookup key with
    | none =>
      (updateAt f path []).map fun (inner, a) => (entries ++ [(key, .table .implied inner)], a)
    | some (.table .inline _) => none
    | some (.table origin inner) =>
      (updateAt f path inner).map fun (inner, a) => (entries.set key (.table origin inner), a)
    | some (.tables elements) =>
      (updateLast (updateAt f path) elements).map fun (elements, a) =>
        (entries.set key (.tables elements), a)
    | some _ => none

/-- Adds a value under a key, before which a dotted path may stand. The path leads into tables
without a heading, the last of which has to be one that dotted keys made. -/
def insert (value : Value) (key : String) : List String → Entries → Option Entries
  | [], entries => if (entries.lookup key).isNone then some (entries ++ [(key, value)]) else none
  | step :: path, entries =>
    match entries.lookup step with
    | none => (insert value key path []).map fun inner => entries ++ [(step, .table .dotted inner)]
    | some (.table .dotted inner) =>
      (insert value key path inner).map fun inner => entries.set step (.table .dotted inner)
    | some (.table .implied inner) =>
      if path.isEmpty then none
      else (insert value key path inner).map fun inner => entries.set step (.table .implied inner)
    | some (.tables elements) =>
      if path.isEmpty then none
      else
        (updateLast (fun e => (insert value key path e).map (·, ())) elements).map
          fun (elements, _) => entries.set step (.tables elements)
    | some _ => none

end Entries

/-- A document that is being read: the tables that are complete, and the one that is open. -/
structure Draft where
  root : Entries := []
  /-- The path of the open table; empty for the root itself. -/
  path : List String := []
  /-- Whether the open table is one of several that share its heading. -/
  shared : Bool := false
  entries : Entries := []

namespace Draft

/-- Adds a value to the open table. -/
def insert (d : Draft) (path : List String) (key : String) (value : Value) : Option Draft :=
  (Entries.insert value key path d.entries).map fun entries => { d with entries }

/-- Adds a complete table to what stands under its key. -/
def put (key : String) (shared : Bool) (table entries : Entries) : Option (Entries × Unit) :=
  match shared, entries.lookup key with
  | true, some (.tables elements) => some (entries.set key (.tables (elements ++ [table])), ())
  | false, none => some (entries ++ [(key, .table .heading table)], ())
  | _, _ => none

/-- All tables, with the open one in its place. -/
def close (d : Draft) : Option Entries :=
  match d.path.getLast? with
  | none => some d.entries
  | some key =>
    (Entries.updateAt (put key d.shared d.entries) d.path.dropLast d.root).map (·.1)

/-- Takes out what a heading adds to: nothing, or a table that other headings implied. -/
def take (key : String) (entries : Entries) : Option (Entries × Entries) :=
  match entries.lookup key with
  | none => some (entries, [])
  | some (.table .implied inner) => some (entries.erase key, inner)
  | some _ => none

/-- Makes room for a table that shares its heading. -/
def share (key : String) (entries : Entries) : Option (Entries × Entries) :=
  match entries.lookup key with
  | none => some (entries ++ [(key, .tables [])], [])
  | some (.tables _) => some (entries, [])
  | some _ => none

/-- Closes the open table and opens the one that a heading names. -/
def openTable (d : Draft) (path : List String) (shared : Bool) : Option Draft := do
  let root ← d.close
  let key ← path.getLast?
  let (root, entries) ← Entries.updateAt (if shared then share key else take key) path.dropLast root
  return { root, path, shared, entries }

end Draft
end CallStudy.Toml
