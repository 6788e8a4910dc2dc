import Linkage.Decimal.Shortest

/-!
# Writing a number

A `Layout` holds the decisions of one number format: where positional notation begins and ends,
whether a whole number shows its point, and how an exact tie between two shortest decimals goes.
`Layout.write` renders a double by them.
-/

namespace Linkage.Decimal

/-- The decisions of a number format. -/
structure Layout where
  /-- Which of two equally near shortest decimals is written. -/
  tie : Tie
  /-- A number is written positionally when its leading digit stands for `10 ^ e` with `e` in this
  half-open range; without a range it always is. -/
  positional : Option (Int × Int)
  /-- A whole number in positional notation ends in `.0`. -/
  pointZero : Bool
  /-- What is written for a value that is no number. -/
  nan : String
  /-- What is written for the positive infinity; the negative one has a minus sign in front. -/
  infinity : String

/-- The decimal digits of a number. -/
def digitsOf (n : Nat) : List Char :=
  Nat.toDigits 10 n

/-- Positional notation: the digits with the point where the scale puts it. -/
def positionalText (pointZero : Bool) (d : Digits) : String :=
  let digits := digitsOf d.coefficient
  if 0 ≤ d.scale then
    String.ofList (digits ++ List.replicate d.scale.toNat '0') ++ (if pointZero then ".0" else "")
  else
    let places := (-d.scale).toNat
    let padded := List.replicate (places + 1 - digits.length) '0' ++ digits
    let whole := padded.length - places
    String.ofList (padded.take whole ++ '.' :: padded.drop whole)

/-- Scientific notation: one digit before the point and a signed power of ten. -/
def scientificText (d : Digits) : String :=
  let digits := digitsOf d.coefficient
  let power := d.scale + (digits.length : Int) - 1
  let mantissa := match digits with
    | [] => []
    | [lead] => [lead]
    | lead :: rest => lead :: '.' :: rest
  let sign := if power < 0 then '-' else '+'
  String.ofList (mantissa ++ 'e' :: sign :: digitsOf power.natAbs)

/-- The exponent of the leading digit. -/
def Digits.leading (d : Digits) : Int :=
  d.scale + ((digitsOf d.coefficient).length : Int) - 1

/-- The text of a magnitude. -/
def Layout.writeDigits (layout : Layout) (d : Digits) : String :=
  match layout.positional with
  | none => positionalText layout.pointZero d
  | some (least, bound) =>
      if d.coefficient = 0 ∨ (least ≤ d.leading ∧ d.leading < bound) then
        positionalText layout.pointZero d
      else scientificText d

/-- The text of a double. -/
def Layout.write (layout : Layout) (x : Float) : String :=
  let bits := x.toBits
  let sign := if bits >>> 63 = 1 then "-" else ""
  if x.isNaN then layout.nan
  else if x.isInf then sign ++ layout.infinity
  else
    let binary := Binary.ofBits bits
    let digits : Digits :=
      if binary.mantissa = 0 then ⟨0, 0⟩ else (binary.shortest layout.tie).stripZeros 330
    sign ++ layout.writeDigits digits

end Linkage.Decimal
