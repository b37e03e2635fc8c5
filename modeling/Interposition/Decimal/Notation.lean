import Interposition.Decimal.Shortest
/-!
Written forms of floating-point numbers.

A written form is a record of decisions: whether whole numbers keep a `.0`, and
from which magnitude on an exponent is written.  Digits are always the shortest
ones that read back as the number.
-/

namespace Interposition.Decimal

/-- How a floating-point number is written. -/
structure Notation where
  /-- Write a fractional part even for whole numbers. -/
  keepsFraction : Bool
  /-- Numbers `0.d… · 10 ^ point` with `point` below the first or from the
  second bound on are written with an exponent. -/
  positional : Option (Int × Int)

/-- The plain form: no exponent ever, and no fraction on whole numbers. -/
def Notation.plain : Notation :=
  { keepsFraction := false, positional := none }

/-- The inspection form: numbers below `0.0001` or from `1e16` on have an
exponent, all others a decimal point. -/
def Notation.inspect : Notation :=
  { keepsFraction := true, positional := some (-3, 17) }

/-- The characters of decimal digits. -/
def Digits.chars (digits : List Nat) : List Char :=
  digits.map Nat.digitChar

/-- Digits around a decimal point. -/
def Digits.writePositional (keepsFraction : Bool) (d : Digits) : List Char :=
  if d.point ≤ 0 then
    '0' :: '.' :: (List.replicate (-d.point).toNat '0' ++ Digits.chars d.digits)
  else
    let whole := d.digits.take d.point.toNat
    let zeros := d.point.toNat - whole.length
    let fraction := d.digits.drop d.point.toNat
    Digits.chars whole ++ List.replicate zeros '0' ++
      if fraction.isEmpty then (if keepsFraction then ['.', '0'] else [])
      else '.' :: Digits.chars fraction

/-- One digit, the others after a point, and the exponent of ten. -/
def Digits.writeExponent (d : Digits) : List Char :=
  let fraction := d.digits.drop 1
  Digits.chars (d.digits.take 1) ++
    (if fraction.isEmpty then [] else '.' :: Digits.chars fraction) ++
    'e' :: (toString (d.point - 1)).toList

/-- Write positive digits. -/
def Notation.writeDigits (form : Notation) (d : Digits) : List Char :=
  match form.positional with
  | none => d.writePositional form.keepsFraction
  | some (least, bound) =>
    if least ≤ d.point ∧ d.point < bound then d.writePositional form.keepsFraction
    else d.writeExponent

/-- Write a magnitude. -/
def Notation.writeMagnitude (form : Notation) : Magnitude → List Char
  | .zero => if form.keepsFraction then ['0', '.', '0'] else ['0']
  | .finite value => form.writeDigits value.shortest
  | .infinite => ['i', 'n', 'f']
  | .undefined => ['N', 'a', 'N']

/-- Write the number with the given bits.  An undefined number has no sign;
zero has one. -/
def Notation.writeBits (form : Notation) (bits : UInt64) : List Char :=
  let (negative, magnitude) := Magnitude.ofBits bits
  let text := form.writeMagnitude magnitude
  if negative && magnitude != .undefined then '-' :: text else text

/-- Write a floating-point number. -/
def Notation.write (form : Notation) (x : Float) : List Char :=
  form.writeBits x.toBits

end Interposition.Decimal
