import Interposition.Host
/-!
Forced constants.

Defining a constant is refused when its name is taken.  Forcing it binds the
name in any case: the entry that held the name is displaced, whoever owned it,
and the new entry stands at the end of the table.
-/

namespace Interposition
namespace Host

/-- Bind a constant, and return the entry it displaced. -/
def forceConstant (name : Name) (value : Value) (flags : ConstFlags) (owner : Owner)
    (host : Host) : Option Constant × Host :=
  let (previous?, replaced) :=
    host.onRegistry (Registry.replace (.constant name value flags owner))
  match previous? with
  | none => (none, replaced)
  | some previous =>
    (some previous, replaced.emit (.replaced name owner previous.owner))

/-- Bind a constant to null. -/
def forceNull (name : Name) (flags : ConstFlags) (owner : Owner) :
    Host → Option Constant × Host :=
  forceConstant name .null flags owner

/-- Bind a constant to a truth value. -/
def forceBool (name : Name) (value : Bool) (flags : ConstFlags) (owner : Owner) :
    Host → Option Constant × Host :=
  forceConstant name (.bool value) flags owner

/-- Bind a constant to an integer. -/
def forceInt (name : Name) (value : Int64) (flags : ConstFlags) (owner : Owner) :
    Host → Option Constant × Host :=
  forceConstant name (.int value) flags owner

/-- Bind a constant to a floating-point number. -/
def forceFloat (name : Name) (value : Float) (flags : ConstFlags) (owner : Owner) :
    Host → Option Constant × Host :=
  forceConstant name (.float value) flags owner

/-- Bind a constant to a text. -/
def forceText (name : Name) (value : List Char) (flags : ConstFlags) (owner : Owner) :
    Host → Option Constant × Host :=
  forceConstant name (.bytes (Text.Utf8.encode value)) flags owner

/-- Bind a constant to bytes, zero bytes included. -/
def forceBytes (name : Name) (value : List UInt8) (flags : ConstFlags) (owner : Owner) :
    Host → Option Constant × Host :=
  forceConstant name (.bytes value) flags owner

end Host
end Interposition
