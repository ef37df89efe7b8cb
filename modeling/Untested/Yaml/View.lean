/-
# Typed views of YAML nodes

A program that takes settings from a document expects texts, lists and records in certain places.
A view says what a node is worth there.  A plain scalar without text stands for an empty list or
record, whatever scalar stands for a text is taken as it is written, and aliases are followed.
-/

import Untested.Yaml.Node

namespace Untested.Yaml.Node

/-- The text that a node of a document is worth. -/
def text? (root node : Node) : Option String :=
  match root.resolve node with
  | scalar _ _ _ text => some (String.ofList text)
  | _ => none

def items? (root node : Node) : Option (List Node) :=
  match root.resolve node with
  | sequence _ items => some items
  | scalar _ _ true [] => some []
  | _ => none

def texts? (root node : Node) : Option (List String) := do
  (← items? root node).mapM (text? root)

/-- Whether a plain scalar says that there is no value. -/
def isNullWord (text : List Char) : Bool :=
  text = ['~'] || text = "null".toList || text = "Null".toList || text = "NULL".toList

/-- The tag for the absence of a value. -/
def nullTag : List Char :=
  "tag:yaml.org,2002:null".toList

/-- The text that a node is worth where there may be none. -/
def optionalText? (root node : Node) : Option (Option String) :=
  match root.resolve node with
  | scalar _ none true text =>
    some (if text.isEmpty || isNullWord text then none else some (String.ofList text))
  | scalar _ (some tag) true text =>
    if tag = nullTag then if isNullWord text then some none else none
    else some (some (String.ofList text))
  | scalar _ _ false text => some (some (String.ofList text))
  | _ => none

/-- The fields of a record.  Their names have to be texts. -/
def fields? (root node : Node) : Option (List (String × Node)) :=
  match root.resolve node with
  | mapping _ entries => entries.mapM fun (key, value) => (text? root key).map (·, value)
  | scalar _ _ true [] => some []
  | _ => none

/-- The value of a field in a given view, or what it is by default.  A field may not come
twice. -/
def field? {α : Type} (fields : List (String × Node)) (name : String) (absent : α)
    (view : Node → Option α) : Option α :=
  match fields.filter (·.1 = name) with
  | [] => some absent
  | [field] => view field.2
  | _ => none

end Untested.Yaml.Node
