import Interposition.Text.Utf8
import Interposition.Text.Quoted
/-!
Names of symbols.

A name is a string of bytes, compared byte for byte: two names that differ only
in the case of a letter are different names, and a name need not be valid text.
-/

namespace Interposition

/-- The key under which a symbol is registered. -/
structure Name where
  bytes : List UInt8
deriving DecidableEq, Repr, Inhabited

namespace Name

/-- The name spelled by a text. -/
def ofText (text : List Char) : Name :=
  ⟨Text.Utf8.encode text⟩

/-- The name spelled by a string. -/
def ofString (text : String) : Name :=
  ofText text.toList

/-- The number of bytes of a name. -/
def length (name : Name) : Nat :=
  name.bytes.length

/-- Lexicographic order of bytes. -/
def compareBytes : List UInt8 → List UInt8 → Ordering
  | [], [] => .eq
  | [], _ :: _ => .lt
  | _ :: _, [] => .gt
  | first :: firstRest, second :: secondRest =>
    (compare first second).then (compareBytes firstRest secondRest)

instance : Ord Name where
  compare first second := compareBytes first.bytes second.bytes

/-- Whether the bytes of a name begin with the given ones. -/
def startsWith (name : Name) (start : List UInt8) : Bool :=
  start.isPrefixOf name.bytes

/-- The name as text, for messages. -/
def display (name : Name) : String :=
  String.ofList (Text.Utf8.lossy name.bytes)

/-- The name as quoted text, for inspection. -/
def inspect (name : Name) : String :=
  String.ofList (Text.quote (Text.Utf8.lossy name.bytes))

/-- The distinct names of a list, in byte order. -/
def sortDistinct (names : List Name) : List Name :=
  names.eraseDups.mergeSort fun first second => (compare first second).isLE

end Name
end Interposition
