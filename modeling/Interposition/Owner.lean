import Interposition.Text.Inspect
/-!
Owners of symbols, and where their symbols come from.

An owner is a loaded component.  Number and name together identify it: two
components that share only one of them are different owners.
-/

namespace Interposition

/-- The component that registers a symbol. -/
structure Owner where
  number : UInt32
  name : String
deriving DecidableEq, Repr, Inhabited

/-- `name#number`, for messages. -/
def Owner.display (owner : Owner) : String :=
  owner.name ++ "#" ++ toString owner.number.toNat

/-- The inspection form of an owner; its name stands there without quotes. -/
def Owner.inspect (owner : Owner) : String :=
  Text.Inspect.tagged "OwnerTag" owner.display

/-- Where a callable or a type comes from. -/
inductive Origin where
  /-- From a component that was loaded into the running image. -/
  | image
  /-- From the hosting platform itself. -/
  | intrinsic
deriving DecidableEq, Repr, Inhabited

namespace Origin

/-- Only what was loaded into the image may be evicted. -/
def isImage : Origin → Bool
  | .image => true
  | .intrinsic => false

def display : Origin → String
  | .image => "image"
  | .intrinsic => "intrinsic"

def inspect : Origin → String
  | .image => "Image"
  | .intrinsic => "Intrinsic"

end Origin
end Interposition
