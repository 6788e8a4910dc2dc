/-!
# Reading a decimal into a double

A numeral is read digit by digit into a 64-bit significand.  Digits that no longer fit are dropped:
before the point each of them counts as one power of ten, behind the point they do not count at all.
The significand is then rounded to a double and scaled by one power of ten from a table, so a result
can differ from the nearest double in its last place.  A result too large for a double is refused.
-/

namespace Linkage.Decimal

/-- A significand with the power of ten it is scaled by. -/
structure Scaled where
  /-- The digits read so far, at most 64 bits. -/
  significand : Nat
  /-- The power of ten. -/
  exponent : Int
  /-- A digit did not fit any more. -/
  full : Bool
deriving DecidableEq, Repr

namespace Scaled

/-- Whether a further digit still fits into 64 bits. -/
def fits (s : Scaled) (digit : Nat) : Bool :=
  s.significand * 10 + digit < Nat.pow 2 64

/-- Read one digit before the point. -/
def whole (s : Scaled) (digit : Nat) : Scaled :=
  if !s.full && s.fits digit then { s with significand := s.significand * 10 + digit }
  else { s with exponent := s.exponent + 1, full := true }

/-- Read one digit behind the point; once one does not fit, those after it are dropped too. -/
def fraction (s : Scaled) (digit : Nat) : Scaled :=
  if !s.full && s.fits digit then
    { s with significand := s.significand * 10 + digit, exponent := s.exponent - 1 }
  else { s with full := true }

/-- Read all digits before the point. -/
def ofWhole (digits : List Nat) : Scaled :=
  digits.foldl whole ⟨0, 0, false⟩

/-- Read all digits behind the point; each is tried afresh after the whole part. -/
def andFraction (s : Scaled) (digits : List Nat) : Scaled :=
  digits.foldl fraction { s with full := false }

end Scaled

/-- The double nearest to a power of ten, up to the largest one that is finite. -/
def powerOfTen (n : Nat) : Float :=
  Float.ofScientific 1 false n

/-- Divide by the largest power of ten until the exponent is within the table. -/
def scaleDown (x : Float) (exponent : Nat) : Nat → Float
  | 0 => x
  | fuel + 1 =>
      if exponent ≤ 308 then x / powerOfTen exponent
      else if x == 0 then x
      else scaleDown (x / powerOfTen 308) (exponent - 308) fuel

/-- The double that a scaled significand stands for; none if it is too large. -/
def Scaled.toFloat? (s : Scaled) : Option Float :=
  let x := s.significand.toUInt64.toFloat
  if s.exponent < 0 then some (scaleDown x s.exponent.natAbs (s.exponent.natAbs / 308 + 1))
  else if 308 < s.exponent then (if x == 0 then some x else none)
  else
    let scaled := x * powerOfTen s.exponent.toNat
    if scaled.isInf then none else some scaled

end Linkage.Decimal
