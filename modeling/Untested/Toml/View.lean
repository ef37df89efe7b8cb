/-
# Typed views of TOML values

A program that takes settings from a document expects texts, lists and records in certain places.
A record is a table, or an array of its fields in order.  A date is a record without any field.
-/

import Untested.Toml.Value

namespace Untested.Toml

/-- The text that a value is worth. -/
def text? : Toml → Option String
  | string text => some (String.ofList text)
  | _ => none

def items? : Toml → Option (List Toml)
  | array items | tables items => some items
  | _ => none

def texts? (value : Toml) : Option (List String) := do
  (← items? value).mapM text?

/-- The values of a record's fields, as far as there are any, in the order of the given names. -/
def fields? (names : List String) : Toml → Option (List (Option Toml))
  | table _ entries => some (names.map fun name => entries.lookup name.toList)
  | array items | tables items => some (names.mapIdx fun index _ => items[index]?)
  | dateTime _ => some (names.map fun _ => none)
  | _ => none

/-- The value of a field in a given view, or what it is by default. -/
def field? {α : Type} (absent : α) (view : Toml → Option α) : Option Toml → Option α
  | none => some absent
  | some value => view value

end Untested.Toml
