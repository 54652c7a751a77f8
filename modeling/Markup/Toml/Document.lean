import Markup.Toml.Value

/-! # Documents in the making

A TOML document is written in sections. A header opens a table, or adds one to an array of
tables, and the keys that follow go there; dotted keys make tables on the way. What may be opened
or added to again depends on how a table came about (`Origin`):

* one that was only passed through by a header may still get a header of its own;
* one that a header named, or that dotted keys made, may not, except that the dotted keys of the
  same section go on adding to it;
* a value, tables in braces included, is never added to. -/

namespace Markup.Toml

/-- How a table came about: a header passed through it, dotted keys made it in the section with this
number, or a header named it. -/
inductive Origin where
  | implied
  | dotted (number : Nat)
  | declared
deriving DecidableEq, Repr, Inhabited

/-- What a key stands for while the document is read; a table may grow, and so may the last of an
array of tables. -/
inductive Entry where
  | value (value : Value)
  | table (origin : Origin) (entries : List (String × Entry))
  | tables (items : List (List (String × Entry)))
deriving Inhabited

/-- The keys of a table that may grow. -/
abbrev Entries := List (String × Entry)

/-- Sets a key; one that is there keeps its place. -/
def Entries.set : Entries → String → Entry → Entries
  | [], key, e => [(key, e)]
  | (k, old) :: rest, key, e =>
    if k = key then (k, e) :: rest else (k, old) :: Entries.set rest key e

/-- Changes the table at a path, making tables where there are none. An array of tables stands
for its last table; a value is in the way. -/
def Entries.changeAt (f : Entries → Option Entries) : List String → Entries → Option Entries
  | [], entries => f entries
  | key :: path, entries =>
    match entries.lookup key with
    | none => (changeAt f path []).map fun sub => entries.set key (.table .implied sub)
    | some (.table origin sub) =>
      (changeAt f path sub).map fun sub => entries.set key (.table origin sub)
    | some (.tables items) =>
      (changeAt f path (items.getLast?.getD [])).map fun last =>
        entries.set key (.tables (items.dropLast ++ [last]))
    | some (.value _) => none

/-- Opens the table of a header; it must not have been named or made by dotted keys before. -/
def Entries.declareTable (entries : Entries) (path : List String) : Option Entries :=
  match path.getLast? with
  | none => none
  | some key =>
    entries.changeAt (fun here =>
      match here.lookup key with
      | none => some (here.set key (.table .declared []))
      | some (.table .implied sub) => some (here.set key (.table .declared sub))
      | some _ => none) path.dropLast

/-- Adds a table to the array of a header. -/
def Entries.declareItem (entries : Entries) (path : List String) : Option Entries :=
  match path.getLast? with
  | none => none
  | some key =>
    entries.changeAt (fun here =>
      match here.lookup key with
      | none => some (here.set key (.tables [[]]))
      | some (.tables items) => some (here.set key (.tables (items ++ [[]])))
      | some _ => none) path.dropLast

/-- Sets a new key, dotted or not, in section `number`. -/
def Entries.assign (number : Nat) (value : Value) : List String → Entries → Option Entries
  | [], _ => none
  | key :: path, entries =>
    if path.isEmpty then
      match entries.lookup key with
      | none => some (entries.set key (.value value))
      | some _ => none
    else
      match entries.lookup key with
      | none => (assign number value path []).map fun sub =>
          entries.set key (.table (.dotted number) sub)
      | some (.table .implied sub) => (assign number value path sub).map fun sub =>
          entries.set key (.table (.dotted number) sub)
      | some (.table (.dotted n) sub) =>
        if n = number then (assign number value path sub).map fun sub =>
          entries.set key (.table (.dotted number) sub)
        else none
      | some _ => none

mutual

/-- The value of an entry. -/
def Entry.toValue : Entry → Value
  | .value v => v
  | .table _ entries => .table (entriesToTable entries)
  | .tables items => .array (itemsToValues items)

/-- The values of entries. -/
def entriesToTable : List (String × Entry) → List (String × Value)
  | [] => []
  | (k, e) :: rest => (k, e.toValue) :: entriesToTable rest

/-- The values of tables. -/
def itemsToValues : List (List (String × Entry)) → List Value
  | [] => []
  | entries :: rest => .table (entriesToTable entries) :: itemsToValues rest

end

end Markup.Toml
