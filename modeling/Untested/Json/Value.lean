/-
# JSON values

Values of the JSON data format.  A number is kept as it is written, and an object keeps its members
in order, repeated names included, so that whoever looks at a value decides what is too much.
-/

namespace Untested

inductive JsonValue where
  | null
  | bool (value : Bool)
  | number (literal : List Char)
  /-- A string, or nothing where what is written encodes no text. -/
  | string (text : Option (List Char))
  | array (items : List JsonValue)
  /-- Named values in order.  A name may encode no text, just as a string may. -/
  | object (members : List (Option (List Char) × JsonValue))
deriving Inhabited

end Untested
