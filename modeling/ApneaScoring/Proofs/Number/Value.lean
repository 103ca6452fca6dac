import ApneaScoring.Proofs.Number.Whole
import Mathlib.Data.Rat.Floor

namespace ApneaScoring

theorem roundUnits_one_mem (units : Nat) :
    2 ^ 53 * roundUnits units 1 ≤ 2 ^ 53 * units + units ∧
      2 ^ 53 * units ≤ 2 ^ 53 * roundUnits units 1 + units := by
  by_cases hfull : 2 ^ 52 ≤ units
  · have hround := roundUnits_mem Nat.one_pos hfull
    rwa [Nat.mul_one] at hround
  · have hshort : ShortSignificand units := ⟨units, 0, by omega, by omega⟩
    rw [Binary64.roundUnits_one_of_short hshort]
    omega

namespace Binary64

/-- The exact value of a finite number. -/
def toRat (a : Binary64) : ℚ :=
  a.place / unitsPerOne

section

variable {a b : Binary64} {i : Int}

theorem unitsPerOne_cast_pos : (0 : ℚ) < unitsPerOne :=
  Nat.cast_pos.mpr unitsPerOne_pos

theorem toRat_zero : zero.toRat = 0 := by
  rw [toRat, place_zero, Int.cast_zero, zero_div]

theorem toRat_mul_unitsPerOne (a : Binary64) : a.toRat * unitsPerOne = a.place :=
  div_mul_cancel₀ _ unitsPerOne_cast_pos.ne'

theorem toRat_le_iff : a.toRat ≤ b.toRat ↔ a.place ≤ b.place := by
  unfold toRat
  rw [div_le_div_iff_of_pos_right unitsPerOne_cast_pos, Int.cast_le]

theorem toRat_lt_iff : a.toRat < b.toRat ↔ a.place < b.place := by
  rw [← not_le, toRat_le_iff, Int.not_le]

theorem toRat_of_place (h : a.place = i * unitsPerOne) : a.toRat = i := by
  unfold toRat
  rw [h, Int.cast_mul, Int.cast_natCast, mul_div_cancel_right₀ _ unitsPerOne_cast_pos.ne']

theorem abs_toRat (a : Binary64) : |a.toRat| = a.place.natAbs / unitsPerOne := by
  unfold toRat
  rw [abs_div, Nat.abs_cast, ← Int.cast_abs, Nat.cast_natAbs]

theorem signedUnits_natAbs (i : Int) : signedUnits (i < 0) i.natAbs = i := by
  by_cases h : i < 0
  · rw [decide_eq_true h, signedUnits_true]
    omega
  · rw [decide_eq_false h, signedUnits_false]
    omega

/-- The part of a number by which rounding may change it. -/
def roundoff : ℚ :=
  1 / 2 ^ 53

def finiteBound : ℚ :=
  unitsBound / unitsPerOne

theorem roundoff_pos : 0 < roundoff := by
  norm_num [roundoff]

theorem finiteBound_mul_unitsPerOne : finiteBound * unitsPerOne = unitsBound :=
  div_mul_cancel₀ _ unitsPerOne_cast_pos.ne'

theorem nearestPlace_sub_mem {total : Int} (h : (nearestPlace total).natAbs < unitsBound) :
    2 ^ 53 * (nearestPlace total - total).natAbs ≤ total.natAbs := by
  have hround := roundUnits_one_mem total.natAbs
  have hkept : roundUnits total.natAbs 1 < unitsBound := by
    rw [nearestPlace, natAbs_signedUnits] at h
    omega
  rw [nearestPlace, Nat.min_eq_left (Nat.le_of_lt hkept)]
  unfold signedUnits
  split
  · next hneg =>
      have hneg := of_decide_eq_true hneg
      omega
  · next hnonneg =>
      have hnonneg := of_decide_eq_false (Bool.eq_false_iff.mpr hnonneg)
      omega

theorem natAbs_nearestPlace_lt {total : Int}
    (h : 2 ^ 53 * total.natAbs + total.natAbs < 2 ^ 53 * unitsBound) :
    (nearestPlace total).natAbs < unitsBound := by
  have hround := roundUnits_one_mem total.natAbs
  rw [nearestPlace, natAbs_signedUnits]
  omega

theorem isFinite_add (ha : a.isFinite = true) (hb : b.isFinite = true)
    (h : (1 + roundoff) * |a.toRat + b.toRat| < finiteBound) : (a + b).isFinite = true := by
  refine isFinite_iff.mpr ⟨add_ne_nan (ne_nan_of_isFinite ha) hb, ?_⟩
  rw [place_add ha hb]
  apply natAbs_nearestPlace_lt
  have hunits : (1 + roundoff) * ((a.place + b.place).natAbs : ℚ) < unitsBound := by
    have hscaled := mul_lt_mul_of_pos_right h unitsPerOne_cast_pos
    have hplace : |a.toRat + b.toRat| * unitsPerOne = (a.place + b.place).natAbs := by
      conv_lhs => rw [← abs_of_pos unitsPerOne_cast_pos, ← abs_mul]
      rw [add_mul, toRat_mul_unitsPerOne, toRat_mul_unitsPerOne, ← Int.cast_add,
        ← Int.cast_abs, ← Nat.cast_natAbs]
    rwa [finiteBound_mul_unitsPerOne, mul_assoc, hplace] at hscaled
  have hwhole : (2 ^ 53 + 1) * ((a.place + b.place).natAbs : ℚ) < 2 ^ 53 * unitsBound := by
    unfold roundoff at hunits
    linarith
  have hcast : (2 ^ 53 + 1) * (a.place + b.place).natAbs < 2 ^ 53 * unitsBound := by
    exact_mod_cast hwhole
  linarith

/-- A finite sum is off by at most the roundoff. -/
theorem abs_toRat_add_sub_le (ha : a.isFinite = true) (hb : b.isFinite = true)
    (hsum : (a + b).isFinite = true) :
    |(a + b).toRat - (a.toRat + b.toRat)| ≤ roundoff * |a.toRat + b.toRat| := by
  have hkept := (isFinite_iff.mp hsum).2
  rw [place_add ha hb] at hkept
  have hunits : (2 ^ 53 * ((nearestPlace (a.place + b.place) - (a.place + b.place)).natAbs : ℚ))
      ≤ (a.place + b.place).natAbs := by
    exact_mod_cast nearestPlace_sub_mem hkept
  rw [Nat.cast_natAbs, Nat.cast_natAbs, Int.cast_abs, Int.cast_abs, Int.cast_sub, Int.cast_add]
    at hunits
  unfold toRat roundoff
  rw [place_add ha hb, ← add_div, ← sub_div, abs_div, abs_div, abs_of_pos unitsPerOne_cast_pos,
    ← mul_div_assoc, div_le_div_iff_of_pos_right unitsPerOne_cast_pos]
  linarith

end

end Binary64

end ApneaScoring
