/-
# TOML values

A TOML document is a table of values and further tables.  A table may be spread over a document,
and how it came up decides what may still be added to it.  `Toml.insertValue` and the two functions
for headings enforce this, so that no value is ever given twice.
-/

namespace Untested

inductive TableOrigin where
  /-- By a heading of its own. -/
  | heading
  /-- On the way to a table with a heading. -/
  | implied
  /-- On the way along a dotted key. -/
  | dotted
  /-- In braces. -/
  | inline
deriving DecidableEq, Repr

inductive Toml where
  | string (text : List Char)
  | integer (value : Int)
  /-- Any other number, as it is written. -/
  | float (literal : List Char)
  | boolean (value : Bool)
  /-- A date, a time or both, as written. -/
  | dateTime (literal : List Char)
  | array (items : List Toml)
  /-- Named values and tables. -/
  | table (origin : TableOrigin) (entries : List (List Char × Toml))
  /-- Tables with the same heading, in order. -/
  | tables (items : List Toml)
deriving Inhabited

namespace Toml

/-- The names along the way to a value. -/
abbrev Key := List (List Char)

/-- The entries with one of them replaced, or added at the end. -/
def setEntry (name : List Char) (value : Toml) :
    List (List Char × Toml) → List (List Char × Toml)
  | [] => [(name, value)]
  | entry :: entries =>
    if entry.1 = name then (name, value) :: entries else entry :: setEntry name value entries

/-- The table that a name leads to when more is to be added.  A table in braces is complete, and a
table with a heading is not added to by dotted keys. -/
def openTable? (isDotted : Bool) : Toml → Option Toml
  | table .inline _ => none
  | table .heading entries => if isDotted then none else some (table .heading entries)
  | table origin entries => some (table origin entries)
  | tables items => items.getLast?
  | _ => none

/-- Puts a changed table back to where `openTable?` found it. -/
def closeTable (new : Toml) : Toml → Toml
  | tables items => tables (items.dropLast ++ [new])
  | _ => new

/-- Changes the table at the end of a key.  Tables missing on the way are made. -/
def changeTable (isDotted : Bool) (change : Toml → Option Toml) : Key → Toml → Option Toml
  | [], value => change value
  | name :: path, table origin entries => do
    let missing := table (if isDotted then .dotted else .implied) []
    let old := (entries.lookup name).getD missing
    let new ← changeTable isDotted change path (← openTable? isDotted old)
    return table origin (setEntry name (closeTable new old) entries)
  | _ :: _, _ => none

/-- The names of a key without the last, and the last. -/
def splitKey? (key : Key) : Option (Key × List Char) :=
  key.getLast?.map fun last => (key.dropLast, last)

/-- Adds a value to a table.  It is an error to name a value twice, or to add to a table by a
dotted key that did not come up by one. -/
def insertValue (key : Key) (value : Toml) (root : Toml) : Option Toml := do
  let (path, name) ← splitKey? key
  changeTable true
    (fun target =>
      match target with
      | table origin entries =>
        if decide (origin = .dotted) = path.isEmpty || (entries.lookup name).isSome then none
        else some (table origin (entries ++ [(name, value)]))
      | _ => none)
    path root

/-- Adds the table of a heading. -/
def openHeading (key : Key) (root : Toml) : Option Toml := do
  let (path, name) ← splitKey? key
  changeTable false
    (fun target =>
      match target with
      | table origin entries =>
        match entries.lookup name with
        | none => some (table origin (entries ++ [(name, table .heading [])]))
        | some (table .implied inner) =>
          some (table origin (setEntry name (table .heading inner) entries))
        | some _ => none
      | _ => none)
    path root

/-- Adds a table to those with the same heading. -/
def openArrayHeading (key : Key) (root : Toml) : Option Toml := do
  let (path, name) ← splitKey? key
  changeTable false
    (fun target =>
      match target with
      | table origin entries =>
        match entries.lookup name with
        | none => some (table origin (entries ++ [(name, tables [table .heading []])]))
        | some (tables items) =>
          some (table origin (setEntry name (tables (items ++ [table .heading []])) entries))
        | some _ => none
      | _ => none)
    path root

/-- Adds a value to the table of the current heading. -/
def insertUnder (heading key : Key) (value : Toml) (root : Toml) : Option Toml :=
  changeTable false (insertValue key value) heading root

end Toml

end Untested
