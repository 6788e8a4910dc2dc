/-!
# The shortest decimal that reads back

A finite double is `mantissa * 2 ^ exponent`.  The reals that round to it form an interval, and
`Binary.shortest` picks from it a decimal with the fewest digits: on the grids with one, two, three
and more digits it tries the two neighbours of the value, and the first grid with a hit wins.  Of
two hits the nearer is taken; an exact tie is left to the caller.  All comparisons are exact.
-/

namespace Linkage.Decimal

/-- A finite double without its sign: `mantissa * 2 ^ exponent`. -/
structure Binary where
  /-- The integer significand. -/
  mantissa : Nat
  /-- The power of two it is scaled by. -/
  exponent : Int
  /-- The gap to the next smaller double is half the gap to the next larger one. -/
  narrowBelow : Bool
deriving DecidableEq, Repr

/-- A decimal `coefficient * 10 ^ scale`. -/
structure Digits where
  /-- The digits as one number. -/
  coefficient : Nat
  /-- The power of ten they are scaled by. -/
  scale : Int
deriving DecidableEq, Repr

/-- Which of two equally near decimals is taken. -/
inductive Tie where
  /-- The larger one. -/
  | up
  /-- The one with an even last digit. -/
  | toEven
deriving DecidableEq, Repr

namespace Binary

/-- The magnitude that the bits of a finite double stand for. -/
def ofBits (bits : UInt64) : Binary :=
  let biased := ((bits >>> 52) &&& 0x7FF).toNat
  let fraction := (bits &&& 0xFFFFFFFFFFFFF).toNat
  if biased = 0 then ⟨fraction, -1074, false⟩
  else ⟨Nat.pow 2 52 + fraction, (biased : Int) - 1075, fraction == 0 && biased > 1⟩

/-- With `10 ^ scale` as the unit, the double is `mantissa * step / span`: the value of `step`. -/
def step (x : Binary) (scale : Int) : Nat :=
  Nat.pow 2 x.exponent.toNat * Nat.pow 10 (-scale).toNat

/-- With `10 ^ scale` as the unit, the double is `mantissa * step / span`: the value of `span`. -/
def span (x : Binary) (scale : Int) : Nat :=
  Nat.pow 2 (-x.exponent).toNat * Nat.pow 10 scale.toNat

/-- Whether a decimal lies among the reals that round to the double; the ends of the interval
belong to it exactly when the mantissa is even. -/
def readsBack (x : Binary) (d : Digits) : Bool :=
  let point := 4 * d.coefficient * x.span d.scale
  let low := (4 * x.mantissa - (if x.narrowBelow then 1 else 2)) * x.step d.scale
  let high := (4 * x.mantissa + 2) * x.step d.scale
  if x.mantissa % 2 = 0 then low ≤ point && point ≤ high else low < point && point < high

/-- Whether the double is smaller than `10 ^ scale`. -/
def below (x : Binary) (scale : Int) : Bool :=
  x.mantissa * x.step scale < x.span scale

/-- The least power of ten above a double that is not zero. -/
def magnitude (x : Binary) : Int :=
  let estimate := ((x.mantissa.log2 : Int) + x.exponent) * 30103 / 100000
  ([estimate - 1, estimate, estimate + 1].find? x.below).getD (estimate + 2)

/-- The decimal on the grid of `10 ^ scale` that reads back and is nearest to the double. -/
def onGrid? (x : Binary) (tie : Tie) (scale : Int) : Option Digits :=
  let floor := x.mantissa * x.step scale / x.span scale
  let lower : Digits := ⟨floor, scale⟩
  let upper : Digits := ⟨floor + 1, scale⟩
  match x.readsBack lower, x.readsBack upper with
  | false, false => none
  | true, false => some lower
  | false, true => some upper
  | true, true =>
      match compare (2 * x.mantissa * x.step scale) ((2 * floor + 1) * x.span scale), tie with
      | .lt, _ => some lower
      | .gt, _ => some upper
      | .eq, .up => some upper
      | .eq, .toEven => some (if floor % 2 = 0 then lower else upper)

/-- The exact decimal value of the double. -/
def exact (x : Binary) : Digits :=
  if 0 ≤ x.exponent then ⟨x.mantissa * Nat.pow 2 x.exponent.toNat, 0⟩
  else ⟨x.mantissa * Nat.pow 5 (-x.exponent).toNat, x.exponent⟩

/-- The decimal with the fewest digits that reads back as the double. -/
def shortest (x : Binary) (tie : Tie) : Digits :=
  let top := x.magnitude
  ((List.range 17).findSome? (fun (n : Nat) => x.onGrid? tie (top - (n + 1)))).getD x.exact

end Binary

/-- Move trailing zeros of the coefficient into the scale; `fuel` bounds how many. -/
def Digits.stripZeros (d : Digits) : Nat → Digits
  | 0 => d
  | fuel + 1 =>
      if d.coefficient ≠ 0 ∧ d.coefficient % 10 = 0 then
        stripZeros ⟨d.coefficient / 10, d.scale + 1⟩ fuel
      else d

end Linkage.Decimal
