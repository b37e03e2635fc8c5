import Interposition.Text.Inspect
import Interposition.Text.Quoted
/-!
Flags of constants.

Flags are the bits of a 32-bit word.  Three bits have a name; all others are
kept as they are.
-/

namespace Interposition

/-- The flags of a constant. -/
structure ConstFlags where
  bits : UInt32
deriving DecidableEq, Repr, Inhabited

namespace ConstFlags

/-- No flags. -/
def empty : ConstFlags := ⟨0⟩

/-- The bits with a name, in the order in which they are listed. -/
def named : List (String × UInt32) :=
  [("PERSISTENT", 1), ("NO_FILE_CACHE", 2), ("DEPRECATED", 4)]

/-- All bits with a name. -/
def known : UInt32 := 7

def isEmpty (flags : ConstFlags) : Bool := flags.bits == 0

/-- Whether every bit of `other` is set. -/
def contains (flags other : ConstFlags) : Bool :=
  flags.bits &&& other.bits == other.bits

/-- Whether some bit of `other` is set. -/
def intersects (flags other : ConstFlags) : Bool :=
  flags.bits &&& other.bits != 0

/-- Whether every bit with a name is set. -/
def isAll (flags : ConstFlags) : Bool :=
  flags.contains ⟨known⟩

def union (first second : ConstFlags) : ConstFlags :=
  ⟨first.bits ||| second.bits⟩

def inter (first second : ConstFlags) : ConstFlags :=
  ⟨first.bits &&& second.bits⟩

def symmDiff (first second : ConstFlags) : ConstFlags :=
  ⟨first.bits ^^^ second.bits⟩

/-- The bits of the first that are not in the second. -/
def diff (first second : ConstFlags) : ConstFlags :=
  ⟨first.bits &&& (second.bits ^^^ 0xFFFFFFFF)⟩

/-- The named bits that are set. -/
def truncate (bits : UInt32) : ConstFlags :=
  ⟨bits &&& known⟩

/-- The complement within the named bits. -/
def complement (flags : ConstFlags) : ConstFlags :=
  truncate (flags.bits ^^^ 0xFFFFFFFF)

/-- Flags from bits that all have a name. -/
def ofBits? (bits : UInt32) : Option ConstFlags :=
  if truncate bits = ⟨bits⟩ then some ⟨bits⟩ else none

/-- The flag with exactly the given name. -/
def ofName? (name : String) : Option ConstFlags :=
  (named.lookup name).map ConstFlags.mk

/-- The bits without a name. -/
def unknown (flags : ConstFlags) : UInt32 :=
  flags.bits &&& (known ^^^ 0xFFFFFFFF)

/-- The named bits that are set, with their names. -/
def setNames (flags : ConstFlags) : List (String × UInt32) :=
  named.filter fun (_, bit) => flags.contains ⟨bit⟩

/-- The names of the named bits that are set. -/
def names (flags : ConstFlags) : List String :=
  flags.setNames.map (·.1)

/-- The named bits that are set one by one, then all others together. -/
def parts (flags : ConstFlags) : List UInt32 :=
  flags.setNames.map (·.2) ++ if flags.unknown == 0 then [] else [flags.unknown]

/-- Bits as a hexadecimal number. -/
def hex (bits : UInt32) : String :=
  "0x" ++ String.ofList (Text.hexDigits bits.toNat)

/-- The inspection form: the names that are set, then the other bits. -/
def inspect (flags : ConstFlags) : String :=
  let rest := if flags.unknown == 0 then [] else [hex flags.unknown]
  let shown := if flags.isEmpty then [hex 0] else flags.names ++ rest
  Text.Inspect.tagged "ConstFlags" (" | ".intercalate shown)

end ConstFlags
end Interposition
