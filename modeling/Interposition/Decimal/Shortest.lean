/-!
Shortest decimal digits of a binary floating-point number.

A finite number is `m · 2 ^ q` with natural numbers `m` and an exponent `q`.
The reals that round to it form an interval around it, and its shortest
decimal is the point of the coarsest decimal grid that lies in this interval:
`Binary.shortest` tries the grids with 1, 2, … digits, looks at the two grid
points next to the number and stops at the first grid that has one in the
interval.  Of two such points the nearer is taken, and the upper one when both
are equally near.  All arithmetic is exact.
-/

namespace Interposition.Decimal

/-- A decimal number `0.d₁d₂… · 10 ^ point`. -/
structure Digits where
  digits : List Nat
  point : Int
deriving DecidableEq, Repr

/-- A positive binary number `m · 2 ^ q`.  `narrowBelow` says that the next
smaller number is only half as far away as the next larger one. -/
structure Binary where
  mantissa : Nat
  exponent : Int
  narrowBelow : Bool
deriving DecidableEq, Repr

/-- The magnitude of a floating-point number. -/
inductive Magnitude where
  | zero
  | finite (value : Binary)
  | infinite
  | undefined
deriving DecidableEq, Repr

/-- Read sign and magnitude off the 64 bits of a number. -/
def Magnitude.ofBits (bits : UInt64) : Bool × Magnitude :=
  let negative := bits >>> 63 == 1
  let biased := ((bits >>> 52) &&& 0x7FF).toNat
  let fraction := (bits &&& 0xFFFFFFFFFFFFF).toNat
  if biased = 0x7FF then
    (negative, if fraction = 0 then .infinite else .undefined)
  else if biased = 0 then
    (negative, if fraction = 0 then .zero else .finite ⟨fraction, -1074, false⟩)
  else
    (negative,
      .finite ⟨Nat.pow 2 52 + fraction, (biased : Int) - 1075,
        decide (fraction = 0) && decide (1 < biased)⟩)

namespace Binary

/-- The number and the two ends of its interval over one denominator:
`(low, value, high, denominator)`, scaled by `10 ^ (-grid)` so that grid
points are the whole numbers. -/
def scaled (b : Binary) (grid : Int) : Nat × Nat × Nat × Nat :=
  let up := Nat.pow 2 (b.exponent - 2).toNat * Nat.pow 10 (-grid).toNat
  let down := Nat.pow 2 (2 - b.exponent).toNat * Nat.pow 10 grid.toNat
  let value := b.mantissa * 4
  let low := value - (if b.narrowBelow then 1 else 2)
  (low * up, value * up, (value + 2) * up, down)

/-- Whether the grid point `n` rounds to the number.  The ends of the interval
belong to it when the mantissa is even. -/
def covers (b : Binary) (low high denominator n : Nat) : Bool :=
  if b.mantissa % 2 = 0 then
    low ≤ n * denominator && n * denominator ≤ high
  else
    low < n * denominator && n * denominator < high

/-- The nearest point of a grid among those that round to the number. -/
def nearestOn (b : Binary) (grid : Int) : Option Nat :=
  let (low, value, high, denominator) := b.scaled grid
  let floor := value / denominator
  let below := b.covers low high denominator floor
  let above := b.covers low high denominator (floor + 1)
  match below, above with
  | false, false => none
  | true, false => some floor
  | false, true => some (floor + 1)
  | true, true =>
    if (value - floor * denominator) * 2 < denominator then some floor
    else some (floor + 1)

/-- The least `k` in a range with the number below `10 ^ k`. -/
def magnitudeFrom (b : Binary) : Nat → Int → Int
  | 0, k => k
  | steps + 1, k =>
    let (_, value, _, denominator) := b.scaled k
    if value < denominator then k else b.magnitudeFrom steps (k + 1)

/-- The `k` with `10 ^ (k - 1) ≤ b < 10 ^ k`. -/
def magnitude (b : Binary) : Int :=
  let bits := b.exponent + (b.mantissa.log2 : Int)
  b.magnitudeFrom 3 (Int.fdiv (bits * 30103) 100000)

/-- Try grids of `count` digits and finer ones. -/
def shortestFrom (b : Binary) (k : Int) : Nat → Nat → Nat × Int
  | 0, count => ((b.nearestOn (k - count)).getD 0, k - count)
  | steps + 1, count =>
    match b.nearestOn (k - count) with
    | some n => (n, k - count)
    | none => b.shortestFrom k steps (count + 1)

end Binary

/-- The digits of a natural number, most significant first, in front of the
given ones. -/
def digitsOnto (n : Nat) (tail : List Nat) : List Nat :=
  if n < 10 then n :: tail else digitsOnto (n / 10) (n % 10 :: tail)

/-- The digits of a natural number, most significant first. -/
def digitsOf (n : Nat) : List Nat :=
  digitsOnto n []

/-- `n · 10 ^ grid` without trailing zeros. -/
def Digits.ofNat (n : Nat) (grid : Int) : Digits :=
  let all := digitsOf n
  { digits := (all.reverse.dropWhile (· == 0)).reverse
    point := grid + (all.length : Int) }

/-- The shortest decimal that reads back as the number.  Seventeen digits
always suffice. -/
def Binary.shortest (b : Binary) : Digits :=
  let (n, grid) := b.shortestFrom b.magnitude 17 1
  Digits.ofNat n grid

end Interposition.Decimal
