import Mathlib

/-!
# Rounding whole numbers

A whole number of up to 64 bits is far below the largest double, so the double it is rounded to is
finite.

* `Double.ReachesTo`, `Double.Fits` : a bound for the exponent, and for the digits, of a double that
  has been taken apart.
* `Double.reachesTo_unpack_pack` : putting a double together keeps the first, and `Double.fits_unpack`
  gives the second.
* `Double.reachesTo_roundWithAccuracy` : rounding raises the exponent by little.
* `Double.isFinite_ofNat`, `Double.isFinite_ofInt` : whole numbers.
-/

namespace Linkage.Double

open Float.Model.UnpackedFloat
open Float.Model (UnpackedFloat)
open Float.Model.Format (binary64)

/-- A double that has been taken apart is zero, or finite with an exponent up to a bound. -/
def ReachesTo (bound : Int) : UnpackedFloat → Prop
  | .zero _ => True
  | .finite _ _ exponent _ => exponent ≤ bound
  | _ => False

/-- The digits of a double are at most as many as it holds. -/
def Fits : UnpackedFloat → Prop
  | .finite _ mantissa _ _ => mantissa < 2 ^ 53
  | _ => True

variable {bound bound' e : Int} {u v : UnpackedFloat} {m : Nat} {s : Sign}

namespace ReachesTo

theorem mono (hu : ReachesTo bound u) (hle : bound ≤ bound') : ReachesTo bound' u := by
  cases u with
  | finite => exact Int.le_trans hu hle
  | _ => exact hu

theorem isFinite (hu : ReachesTo bound u) : u.isFinite = true := by
  cases u with
  | finite | zero => rfl
  | infinity | notANumber => cases hu

theorem neg (hu : ReachesTo bound u) : ReachesTo bound u.neg := by
  cases u with
  | finite | zero => exact hu
  | infinity | notANumber => cases hu

end ReachesTo

theorem exponentBias_eq : binary64.exponentBias = 1023 := rfl

/-! ## Putting together and taking apart -/

theorem fits_unpack (b : BitVec binary64.numBits) : Fits (unpack binary64 b) := by
  unfold unpack
  dsimp only
  split
  · split <;> trivial
  · split
    · split
      · trivial
      · exact Nat.lt_trans (BitVec.isLt _) (by decide)
    · exact BitVec.isLt (1#1 ++ unpackMantissa b)

theorem reachesTo_unpack {x : BitVec 11} {y : BitVec 52} (hx : x.toNat < 2047)
    (hle : (x.toNat : Int) ≤ bound + 1075) (hlow : -1074 ≤ bound) :
    ReachesTo bound (unpack binary64 (packComponents binary64 s x y)) := by
  unfold unpack
  rw [unpackExponent_packComponents, exponentBias_eq]
  dsimp only
  split
  · rename_i hall
    rw [hall] at hx
    exact absurd hx (by decide)
  · split
    · rename_i hzero
      rw [hzero]
      split
      · trivial
      · exact hlow
    · show (x.toNat : Int) - ((1023 : Nat) + (52 : Nat)) ≤ bound
      omega

theorem reachesTo_unpack_pack (hu : ReachesTo bound u) (hlow : -1074 ≤ bound) (hhigh : bound ≤ 971) :
    ReachesTo bound (unpack binary64 (pack binary64 u)) := by
  have hsmall : ∀ {s : Sign} {y : BitVec 52},
      ReachesTo bound (unpack binary64 (packComponents binary64 s 0#11 y)) :=
    reachesTo_unpack (by decide) (show (0 : Int) ≤ bound + 1075 by omega) hlow
  cases u with
  | infinity | notANumber => cases hu
  | zero s => exact hsmall
  | finite s m e hm =>
      change e ≤ bound at hu
      unfold pack
      rw [exponentBias_eq]
      dsimp only
      have hexp : (BitVec.ofNat 11 (e + (1023 : Nat) + (52 : Nat)).toNat).toNat =
          (e + (1023 : Nat) + (52 : Nat)).toNat := by
        rw [BitVec.toNat_ofNat]
        omega
      split
      · omega
      · split
        · exact reachesTo_unpack (by omega) (by omega) hlow
        · exact hsmall

/-! ## Rounding -/

theorem mantissa_shiftRight_le (em : ExtendedMantissa) (count : Nat) :
    (em >>> count).mantissa ≤ em.mantissa := by
  show (Nat.repeat ExtendedMantissa.shiftRightOne count em).mantissa ≤ em.mantissa
  induction count with
  | zero => exact Nat.le_refl _
  | succ count ih => exact Nat.le_trans (Nat.div_le_self _ 2) ih

theorem roundedMantissa_le (em : ExtendedMantissa) : em.roundedMantissa ≤ em.mantissa + 1 := by
  unfold ExtendedMantissa.roundedMantissa Accuracy.roundToNearestEven
  split <;> omega

/-- Digits are cut off until the rest fits. -/
theorem shiftToTargetExponent_le (hm : m < 2 ^ 127) (he : e ≤ bound) (hlow : -1074 ≤ bound) :
    (shiftToTargetExponent binary64 m e .exact).1.mantissa ≤ m ∧
      (shiftToTargetExponent binary64 m e .exact).2 ≤ bound + 74 := by
  refine ⟨mantissa_shiftRight_le ⟨m, false, false⟩ _, ?_⟩
  have hlog : m.log2 < 127 := by
    rcases Nat.eq_zero_or_pos m with rfl | hpos
    · decide
    · exact (Nat.log2_lt (Nat.ne_of_gt hpos)).mpr hm
  have htarget : binary64.targetExponent (Float.Model.totalExponent m e) =
      max ((m.log2 : Int) + 1 + e - (53 : Nat)) (-1074) := rfl
  unfold shiftToTargetExponent shiftToExponent
  dsimp only
  rw [htarget]
  omega

theorem reachesTo_roundWithAccuracy (hm : m < 2 ^ 126) (he : e ≤ bound) (hlow : -1074 ≤ bound) :
    ReachesTo (bound + 148) (roundWithAccuracy binary64 s m e .exact) := by
  obtain ⟨hcut, hexp⟩ := shiftToTargetExponent_le (Nat.lt_trans hm (by decide)) he hlow
  have hrounded : (shiftToTargetExponent binary64 m e .exact).1.roundedMantissa < 2 ^ 127 := by
    have := roundedMantissa_le (shiftToTargetExponent binary64 m e .exact).1
    omega
  obtain ⟨-, hfinal⟩ := shiftToTargetExponent_le hrounded hexp (by omega)
  unfold roundWithAccuracy
  dsimp only
  split
  · trivial
  · exact Int.le_trans hfinal (by omega)

theorem reachesTo_mul (hu : ReachesTo bound u) (hfits : Fits u) (hv : ReachesTo bound' v)
    (hfits' : Fits v) (hlow : -1074 ≤ bound + bound') :
    ReachesTo (bound + bound' + 148) (mul binary64 u v) := by
  cases u with
  | infinity | notANumber => cases hu
  | zero =>
      cases v with
      | infinity | notANumber => cases hv
      | zero | finite => trivial
  | finite =>
      cases v with
      | infinity | notANumber => cases hv
      | zero => trivial
      | finite =>
          exact reachesTo_roundWithAccuracy
            (Nat.lt_trans (Nat.mul_lt_mul'' hfits hfits') (by decide)) (Int.add_le_add hu hv) hlow

/-! ## Whole numbers -/

theorem shiftLeft_lt {n count : Nat} (hn : n < 2 ^ 64) (hcount : count ≤ 53) :
    n <<< count < 2 ^ 126 := by
  rw [Nat.shiftLeft_eq]
  calc n * 2 ^ count < 2 ^ 64 * 2 ^ 62 :=
        Nat.mul_lt_mul_of_lt_of_le hn (Nat.pow_le_pow_right (by decide) (by omega)) (by decide)
    _ = 2 ^ 126 := by decide

theorem reachesTo_ofNat {n : Nat} (hn : n < 2 ^ 64) : ReachesTo 148 (.ofNat binary64 n) := by
  show ReachesTo 148 (Float.Model.UnpackedFloat.normalize binary64 n 0 .positive)
  unfold Float.Model.UnpackedFloat.normalize
  split
  · rename_i hneg
    rw [Int.compare_eq_lt] at hneg
    omega
  · trivial
  · have htarget : binary64.targetExponent (Float.Model.totalExponent n 0) =
        max ((n.log2 : Int) + 1 + 0 - (53 : Nat)) (-1074) := rfl
    have hexact : ReachesTo (0 + 148) (Float.Model.UnpackedFloat.round binary64 .positive n 0) := by
      unfold Float.Model.UnpackedFloat.round decreaseExponent
      rw [htarget]
      exact reachesTo_roundWithAccuracy (shiftLeft_lt hn (by omega)) (by omega) (by decide)
    rw [Int.toNat_natCast]
    exact hexact.mono (by decide)

theorem ofScientific_zero {n : Nat} (hn : 0 < n) :
    .ofScientific binary64 n 0 =
      roundWithAccuracy binary64 .positive (n <<< 53 * 1) (-53 + 0) .exact := by
  have hlow : ¬ (0 : Int) < -(2 ^ 11 + n.log2) := by omega
  unfold Float.Model.UnpackedFloat.ofScientific
  rw [dif_neg (Nat.ne_of_gt hn), if_neg (by decide), if_neg hlow, if_pos (Int.le_refl 0)]
  rfl

theorem reachesTo_unpack_ofNat {n : Nat} (hn : n < 2 ^ 64) :
    ReachesTo 500 (Float.ofNat n).toModel.unpack := by
  by_cases hsmall : n < 2 ^ 53
  · -- the number holds all the digits, and is multiplied by one
    have hofNat : Float.ofNat n = n.toUInt64.toFloat * Float.ofBits 0x3FF0000000000000 := by
      show Float.ofScientific n false 0 = _
      unfold Float.ofScientific
      rw [dif_pos ⟨hsmall, by decide⟩]
      rfl
    have hnumber : ReachesTo 148 n.toUInt64.toFloat.toModel.unpack :=
      reachesTo_unpack_pack (reachesTo_ofNat n.toUInt64.toNat_lt) (by decide) (by decide)
    have hone : ReachesTo 0 (Float.ofBits 0x3FF0000000000000).toModel.unpack :=
      show (-52 : Int) ≤ 0 by decide
    rw [hofNat]
    exact reachesTo_unpack_pack ((reachesTo_mul hnumber (fits_unpack _) hone (fits_unpack _)
      (by decide)).mono (by decide)) (by decide) (by decide)
  · have hofNat : Float.ofNat n = .ofModel (.pack (.ofScientific binary64 n 0)) := by
      show Float.ofScientific n false 0 = _
      unfold Float.ofScientific
      rw [dif_neg (fun h => hsmall h.1)]
      rfl
    have hrounded : ReachesTo (0 + 148) (.ofScientific binary64 n 0) := by
      have hdigits := shiftLeft_lt hn (Nat.le_refl 53)
      rw [ofScientific_zero (by omega), Nat.mul_one]
      generalize n <<< 53 = digits at hdigits ⊢
      exact reachesTo_roundWithAccuracy hdigits (by decide) (by decide)
    rw [hofNat]
    exact reachesTo_unpack_pack (hrounded.mono (by decide)) (by decide) (by decide)

/-- A whole number of up to 64 bits is a finite double. -/
theorem isFinite_ofNat {n : Nat} (hn : n < 2 ^ 64) : (Float.ofNat n).isFinite = true :=
  (reachesTo_unpack_ofNat hn).isFinite

/-- So is a negative one. -/
theorem isFinite_ofInt {n : Int} (hlow : -2 ^ 63 ≤ n) (hhigh : n < 2 ^ 64) :
    (Float.ofInt n).isFinite = true := by
  cases n with
  | ofNat n => exact isFinite_ofNat (Int.ofNat_lt.mp hhigh)
  | negSucc n =>
      have hsmall : n + 1 < 2 ^ 64 := by omega
      exact (reachesTo_unpack_pack (reachesTo_unpack_ofNat hsmall).neg (by decide) (by decide)).isFinite

end Linkage.Double
