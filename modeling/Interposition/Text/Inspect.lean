/-!
Inspection forms of composite values.

Inspection output names the parts of a value: `Name { part: value }` for
records, `Name(value)` for tagged values, and brackets for lists and pairs.
-/

namespace Interposition.Text.Inspect

/-- Items separated by a comma and a space. -/
def separated (items : List String) : String :=
  ", ".intercalate items

/-- A record with named parts. -/
def record (name : String) (parts : List (String × String)) : String :=
  name ++ " \x7b " ++ separated (parts.map fun (part, value) => part ++ ": " ++ value) ++
    " \x7d"

/-- A tagged value. -/
def tagged (name value : String) : String :=
  name ++ "(" ++ value ++ ")"

/-- A list. -/
def list (items : List String) : String :=
  "[" ++ separated items ++ "]"

/-- A pair. -/
def pair (first second : String) : String :=
  "(" ++ separated [first, second] ++ ")"

end Interposition.Text.Inspect
