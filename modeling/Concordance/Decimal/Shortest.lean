import Concordance.Binary.Format

set_option relaxedAutoImplicit false
set_option autoImplicit false

/-!
# The fewest digits that read back

A binary number stands for all reals that round to it. Among the decimal numbers in that
interval the shortest one is looked for by going through the decimal grids from coarse to fine:
on each grid only the two neighbours of the number itself need to be tried, because if any grid
point lies in the interval then one of these two does.

## Main definitions

* `Concordance.Decimal` — a decimal number.
* `Concordance.Decimal.Interval` — the reals that round to a binary number, on a common scale.
* `Concordance.Decimal.shortest` — the shortest decimal number in that interval.
-/

namespace Concordance

-- Powers are those of the core library, also where other ones can be found.
attribute [local instance (high)] instPowNat

/-- The decimal number `significand * 10 ^ exponent`. -/
structure Decimal where
  significand : Nat
  exponent : Int
  deriving DecidableEq, Repr

namespace Decimal

/-- What to do when two decimal numbers are equally near. -/
inductive Tie
  | up
  | even
  deriving DecidableEq, Repr

/-- The reals that round to a binary number: those from `low` to `high` in units of `2 ^ scale`,
the ends included when ties go to this number. The number itself lies at `centre`. -/
structure Interval where
  low : Nat
  centre : Nat
  high : Nat
  scale : Int
  closed : Bool

/-- The interval of `mantissa * 2 ^ exponent`, in quarters of the last place. Below a power of
two the numbers lie twice as dense, unless that is the end of the format. -/
def Interval.of (f : Binary.Format) (mantissa : Nat) (exponent : Int) : Interval where
  low :=
    if mantissa = 2 ^ f.fractionWidth ∧ f.leastExponent < exponent then 4 * mantissa - 1
    else 4 * mantissa - 2
  centre := 4 * mantissa
  high := 4 * mantissa + 2
  scale := exponent - 2
  closed := mantissa % 2 = 0

/-- The interval's unit on the common scale of units and powers `10 ^ grid`. -/
def Interval.unit (i : Interval) (grid : Int) : Nat := 2 ^ i.scale.toNat * 10 ^ (-grid).toNat

/-- The power `10 ^ grid` on the same scale. -/
def Interval.step (i : Interval) (grid : Int) : Nat := 10 ^ grid.toNat * 2 ^ (-i.scale).toNat

/-- Whether `n * 10 ^ grid` lies in the interval. -/
def Interval.holds (i : Interval) (grid : Int) (n : Nat) : Bool :=
  let point := n * i.step grid
  let low := i.low * i.unit grid
  let high := i.high * i.unit grid
  if i.closed then low ≤ point && point ≤ high else low < point && point < high

/-- The nearer of the two neighbours of the centre on a grid that lie in the interval, if any
does. -/
def Interval.pick (i : Interval) (tie : Tie) (grid : Int) : Option Nat :=
  let centre := i.centre * i.unit grid
  let step := i.step grid
  let n := centre / step
  match n != 0 && i.holds grid n, i.holds grid (n + 1) with
  | true, true =>
    let below := centre - n * step
    let above := (n + 1) * step - centre
    if below < above then some n
    else if above < below then some (n + 1)
    else match tie with
      | .up => some (n + 1)
      | .even => if n % 2 = 0 then some n else some (n + 1)
  | true, false => some n
  | false, true => some (n + 1)
  | false, false => none

/-- Goes through at most `fuel` grids from `grid` on down. -/
def Interval.search (i : Interval) (tie : Tie) (grid : Int) : Nat → Decimal
  | 0 => ⟨0, 0⟩
  | fuel + 1 =>
    match i.pick tie grid with
    | some n => ⟨n, grid⟩
    | none => i.search tie (grid - 1) fuel

/-- A grid whose first point lies above every number below `2 ^ size`. -/
def coarsest (size : Int) : Int := if 0 ≤ size then size / 3 + 1 else -(-size * 3 / 10)

/-- The shortest decimal number that reads back as `mantissa * 2 ^ exponent`, and of those the
nearest. A hundred grids reach from the coarsest one to a seventeenth digit. -/
def shortest (f : Binary.Format) (tie : Tie) (mantissa : Nat) (exponent : Int) : Decimal :=
  (Interval.of f mantissa exponent).search tie
    (coarsest (mantissa.log2 + 1 + exponent)) 100

end Decimal

end Concordance
