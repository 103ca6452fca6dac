import ApneaScoring.Proofs.Finiteness
import ApneaScoring.Proofs.Number.Ceiling
import Mathlib.Algebra.Order.Floor.Div
import Mathlib.GroupTheory.GroupAction.Ring

namespace ApneaScoring

section

variable {num den units : Nat}

theorem nearestEven_eq_of_lt {k : Nat} (hden : 0 < den) (hlow : 2 * (k * den) < 2 * num + den)
    (hhigh : 2 * num < 2 * (k * den) + den) : nearestEven num den = k := by
  have hup := two_mul_nearestEven_mul_le num hden
  have hdown := two_mul_le_nearestEven_mul num hden
  have hle : nearestEven num den < k + 1 := by
    apply Nat.lt_of_mul_lt_mul_right (a := den)
    rw [Nat.add_mul]
    omega
  have hge : k < nearestEven num den + 1 := by
    apply Nat.lt_of_mul_lt_mul_right (a := den)
    rw [Nat.add_mul]
    omega
  omega

theorem mul_spacing_le_of_le (h : 2 ^ 52 ≤ units) : 2 ^ 52 * spacing units ≤ units := by
  by_cases hone : spacing units ≤ 1
  · omega
  · exact mul_spacing_le (Nat.lt_of_not_le hone)

/-- A number of full precision is rounded by at most one part in `2 ^ 53`. -/
theorem roundUnits_mem (hden : 0 < den) (h : 2 ^ 52 ≤ units) :
    2 ^ 53 * roundUnits (units * den) den ≤ 2 ^ 53 * units + units ∧
      2 ^ 53 * units ≤ 2 ^ 53 * roundUnits (units * den) den + units := by
  have hup := two_mul_roundUnits_mul_le (units * den) hden
  have hdown := two_mul_le_roundUnits_mul (units * den) hden
  have hspacing := mul_spacing_le_of_le h
  rw [Nat.mul_div_cancel units hden] at hup hdown
  have hle : 2 * roundUnits (units * den) den ≤ 2 * units + spacing units := by
    apply Nat.le_of_mul_le_mul_left _ hden
    linarith
  have hge : 2 * units ≤ 2 * roundUnits (units * den) den + spacing units := by
    apply Nat.le_of_mul_le_mul_left _ hden
    linarith
  omega

end

namespace Binary64

def IsWhole (x : Binary64) (n : Nat) : Prop :=
  x.isFinite = true ∧ x.place = n * unitsPerOne

theorem representable_whole {n : Nat} (hn : n ≤ 2 ^ 53) : Representable (n * unitsPerOne) := by
  refine representable_iff.mpr ⟨?_, ?_⟩
  · calc
      n * unitsPerOne ≤ 2 ^ 53 * unitsPerOne := Nat.mul_le_mul_right _ hn
      _ < unitsBound := by decide +kernel
  · obtain ⟨exponent, hexponent⟩ := exists_unitsPerOne_eq
    rw [hexponent]
    exact shortSignificand_mul_pow exponent hn

theorem isWhole_of_place {x : Binary64} {n : Nat} (hn : n ≤ 2 ^ 53) (hnan : x ≠ nan)
    (hplace : x.place = nearestPlace (n * unitsPerOne)) : x.IsWhole n := by
  have hwhole : nearestPlace ((n : Int) * unitsPerOne) = n * unitsPerOne := by
    have hexact := nearestPlace_place (a := finite false _ (representable_whole hn)) (by simp)
    rw [place_finite, signedUnits_false, Int.natCast_mul] at hexact
    exact hexact
  rw [hwhole] at hplace
  refine ⟨isFinite_iff.mpr ⟨hnan, ?_⟩, hplace⟩
  rw [hplace, ← Int.natCast_mul, Int.natAbs_natCast]
  exact (representable_whole hn).1

theorem isWhole_ofInt {n : Nat} (hn : n ≤ 2 ^ 53) : (ofInt n).IsWhole n :=
  isWhole_of_place hn (ofInt_ne_nan n) (place_ofInt n)

theorem isWhole_zero : zero.IsWhole 0 :=
  ⟨rfl, (Int.zero_mul _).symm⟩

namespace IsWhole

variable {a b x : Binary64} {m n : Nat}

theorem isMeasure (hx : x.IsWhole n) : x.IsMeasure := by
  refine isMeasure_iff.mpr ⟨hx.1, ?_⟩
  rw [hx.2, ← Int.natCast_mul]
  exact Int.natCast_nonneg _

theorem lt_iff (ha : a.IsWhole m) (hb : b.IsWhole n) : a.lt b = true ↔ m < n := by
  have hpos : (0 : Int) < unitsPerOne := Int.natCast_pos.mpr unitsPerOne_pos
  rw [Binary64.lt_iff, ha.2, hb.2, Int.mul_lt_mul_right hpos, Int.ofNat_lt]
  simp [ha.isMeasure.ne_nan, hb.isMeasure.ne_nan]

theorem orZero (hx : x.IsWhole n) : (Binary64.orZero (some x)).IsWhole n := by
  refine ⟨isFinite_orZero fun y hy => ?_, ?_⟩
  · rw [← Option.some.inj hy]
    exact hx.1
  · rw [place_orZero]
    exact hx.2

theorem sub (ha : a.IsWhole m) (hb : b.IsWhole n) (hle : n ≤ m) (hm : m ≤ 2 ^ 53) :
    (a - b).IsWhole (m - n) := by
  apply isWhole_of_place (by omega) (sub_ne_nan ha.1 hb.isMeasure.ne_nan)
  rw [place_sub ha.1 hb.1, ha.2, hb.2, Int.ofNat_sub hle, Int.sub_mul]

end IsWhole

/-- The number nearest to a fifth, which is a little more. -/
def fifth : Binary64 :=
  ofDecimal false 2 (-1)

def fifthUnits : Nat :=
  fifth.place.natAbs

theorem fifth_mem : fifth.isFinite = true ∧ fifth.place = fifthUnits ∧
    2 ^ 52 ≤ fifthUnits ∧ unitsPerOne ≤ 5 * fifthUnits ∧
    2 ^ 54 * (5 * fifthUnits) ≤ (2 ^ 54 + 1) * unitsPerOne := by
  decide +kernel

def fifthOf (n : Nat) : Nat :=
  roundUnits (fifthUnits * n * unitsPerOne) unitsPerOne

theorem fifthOf_mem {n : Nat} (hpos : 0 < n) :
    2 ^ 52 * (5 * fifthOf n) ≤ 2 ^ 52 * (n * unitsPerOne) + n * unitsPerOne ∧
      2 ^ 52 * (n * unitsPerOne) ≤ 2 ^ 52 * (5 * fifthOf n) + n * unitsPerOne := by
  obtain ⟨-, -, hfull, hbelow, habove⟩ := fifth_mem
  have hlarge : 2 ^ 52 ≤ fifthUnits * n :=
    Nat.le_trans hfull (Nat.le_mul_of_pos_right _ hpos)
  obtain ⟨hup, hdown⟩ := roundUnits_mem unitsPerOne_pos hlarge
  have hlow : n * unitsPerOne ≤ 5 * (fifthUnits * n) := by
    rw [Nat.mul_comm n, ← Nat.mul_assoc]
    exact Nat.mul_le_mul_right n hbelow
  have hhigh : 2 ^ 54 * (5 * (fifthUnits * n)) ≤ (2 ^ 54 + 1) * (n * unitsPerOne) := by
    rw [Nat.mul_comm n, ← Nat.mul_assoc, ← Nat.mul_assoc, ← Nat.mul_assoc, Nat.mul_assoc (2 ^ 54)]
    exact Nat.mul_le_mul_right n habove
  unfold fifthOf
  constructor <;> omega

theorem toleranceUnits_mem : 2 ^ 52 ≤ toleranceUnits ∧
    2 ^ 39 * toleranceUnits < unitsPerOne ∧ unitsPerOne ≤ 2 ^ 40 * toleranceUnits := by
  decide +kernel

theorem nearWhole_fifthOf {q : Nat} (hpos : 0 < q) (hlt : 5 * q < 10 ^ 11) :
    nearestEven (fifthOf (5 * q)) unitsPerOne = q ∧ NearWhole (fifthOf (5 * q)) := by
  obtain ⟨hup, hdown⟩ := fifthOf_mem (n := 5 * q) (by omega)
  rw [Nat.mul_assoc] at hup hdown
  have hsize : q * unitsPerOne ≤ 2 ^ 35 * unitsPerOne := Nat.mul_le_mul_right _ (by omega)
  have hone := unitsPerOne_pos
  have hnearest : nearestEven (fifthOf (5 * q)) unitsPerOne = q :=
    nearestEven_eq_of_lt hone (by omega) (by omega)
  -- The distance is at most one part in `2 ^ 52` of the whole number, the tolerance at least one
  -- in `2 ^ 41`.
  refine ⟨hnearest, .inr (.inl ?_)⟩
  obtain ⟨hfull, -, htolerance⟩ := toleranceUnits_mem
  have hlarge : 2 ^ 52 ≤ toleranceUnits * q :=
    Nat.le_trans hfull (Nat.le_mul_of_pos_right _ hpos)
  have hround := (roundUnits_mem hone hlarge).2
  have hshare := Nat.mul_le_mul_right q htolerance
  rw [Nat.mul_comm unitsPerOne, Nat.mul_assoc] at hshare
  unfold wholeDistance wholeUnits
  rw [hnearest, ← Nat.mul_assoc]
  omega

theorem fifthOf_between {q r : Nat} (hr : 0 < r) (hr' : r < 5) (hlt : 5 * q + r < 10 ^ 11) :
    7 * (q * unitsPerOne) + unitsPerOne < 7 * fifthOf (5 * q + r) ∧
      7 * fifthOf (5 * q + r) + unitsPerOne < 7 * ((q + 1) * unitsPerOne) := by
  obtain ⟨hup, hdown⟩ := fifthOf_mem (n := 5 * q + r) (by omega)
  have hone := unitsPerOne_pos
  have hsize : (5 * q + r) * unitsPerOne ≤ 2 ^ 37 * unitsPerOne :=
    Nat.mul_le_mul_right _ (by omega)
  have hlow : 1 * unitsPerOne ≤ r * unitsPerOne := Nat.mul_le_mul_right _ hr
  have hhigh : r * unitsPerOne ≤ 4 * unitsPerOne := Nat.mul_le_mul_right _ (by omega)
  rw [Nat.add_mul, Nat.mul_assoc] at hup hdown hsize
  rw [Nat.add_mul]
  constructor <;> omega

theorem not_nearWhole_of_between {u q : Nat} (hq : q < 2 ^ 35)
    (hlow : 7 * (q * unitsPerOne) + unitsPerOne < 7 * u)
    (hhigh : 7 * u + unitsPerOne < 7 * ((q + 1) * unitsPerOne)) : ¬NearWhole u := by
  have hfar : unitsPerOne < 7 * wholeDistance u := by
    unfold wholeDistance wholeUnits
    rcases Nat.lt_or_ge q (nearestEven u unitsPerOne) with habove | hbelow
    · have hle : (q + 1) * unitsPerOne ≤ nearestEven u unitsPerOne * unitsPerOne :=
        Nat.mul_le_mul_right _ habove
      omega
    · have hle : nearestEven u unitsPerOne * unitsPerOne ≤ q * unitsPerOne :=
        Nat.mul_le_mul_right _ hbelow
      omega
  -- Below `2 ^ 36` the tolerance is less than a seventh of one in each of its three forms.
  have hsize : (q + 1) * unitsPerOne ≤ 2 ^ 35 * unitsPerOne := Nat.mul_le_mul_right _ hq
  obtain ⟨hfull, htolerance, -⟩ := toleranceUnits_mem
  have hsmall : ∀ v ≤ 2 ^ 36 * unitsPerOne,
      7 * roundUnits (toleranceUnits * v) unitsPerOne < unitsPerOne := by
    intro v hv
    have hmono := roundUnits_mono unitsPerOne (Nat.mul_le_mul_left toleranceUnits hv)
    have hlarge : 2 ^ 52 ≤ toleranceUnits * 2 ^ 36 :=
      Nat.le_trans hfull (Nat.le_mul_of_pos_right _ (by decide))
    have hround := (roundUnits_mem unitsPerOne_pos hlarge).1
    rw [← Nat.mul_assoc] at hmono
    omega
  have hwhole : wholeUnits u ≤ 2 ^ 36 * unitsPerOne := by
    have hnearest := two_mul_nearestEven_mul_le u unitsPerOne_pos
    unfold wholeUnits
    omega
  rintro (habsolute | hproportion | hself)
  · omega
  · have hlt := hsmall _ hwhole
    omega
  · have hlt := hsmall u (by omega)
    omega

theorem ceilInt_eq_of_between {u q : Nat} (hlow : q * unitsPerOne < u)
    (hhigh : u ≤ (q + 1) * unitsPerOne) : ceilInt false u = q + 1 := by
  have hpos : (0 : Int) < unitsPerOne := Int.natCast_pos.mpr unitsPerOne_pos
  obtain ⟨hbelow, habove⟩ := ceilInt_mem false u
  rw [signedUnits_false] at hbelow habove
  have hlow' : (q : Int) * unitsPerOne < u := by exact_mod_cast hlow
  have hhigh' : (u : Int) ≤ (q + 1) * unitsPerOne := by exact_mod_cast hhigh
  have hlt : (q : Int) < ceilInt false u :=
    Int.lt_of_mul_lt_mul_right (by omega) (Int.le_of_lt hpos)
  have hlt' : ceilInt false u < (q : Int) + 1 + 1 := by
    apply Int.lt_of_mul_lt_mul_right (a := unitsPerOne) _ (Int.le_of_lt hpos)
    rw [Int.add_mul, Int.one_mul]
    omega
  omega

theorem eq_finite_of_place {a : Binary64} {u : Nat} (ha : a.isFinite = true) (hpos : 0 < u)
    (hplace : a.place = u) : ∃ h, a = finite false u h := by
  cases a with
  | finite s v hv =>
      rw [place_finite] at hplace
      cases s with
      | true =>
          rw [signedUnits_true] at hplace
          omega
      | false =>
          rw [signedUnits_false, Int.ofNat_inj] at hplace
          subst hplace
          exact ⟨hv, rfl⟩
  | infinite s => cases ha
  | nan => cases ha

theorem place_fifth_mul {x : Binary64} {n : Nat} (hx : x.IsWhole n) :
    (fifth * x).isFinite = true ∧ (fifth * x).place = fifthOf n := by
  obtain ⟨hfifth, hplace, -, -, habove⟩ := fifth_mem
  have hone : fifth.place ≤ unitsPerOne := by
    rw [hplace]
    omega
  have hnonneg : 0 ≤ fifth.place := by
    rw [hplace]
    exact Int.natCast_nonneg _
  have hxnonneg := (isMeasure_iff.mp hx.isMeasure).2
  have hfinite := (mul_mem hfifth hnonneg hone hx.1 hxnonneg).1
  have hproduct := place_mul_of_nonneg hfifth hx.1 hnonneg hxnonneg
  have hbound := (isFinite_iff.mp hfinite).2
  rw [hplace, hx.2, ← Int.natCast_mul, Int.natAbs_natCast, Int.natAbs_natCast,
    ← Nat.mul_assoc] at hproduct
  refine ⟨hfinite, ?_⟩
  unfold fifthOf
  omega

/-- A fifth of a whole number goes up to the whole number of fives begun in it. -/
theorem ceilingInt_fifth_mul {x : Binary64} {n : Nat} (hx : x.IsWhole n) (hpos : 0 < n)
    (hlt : n < 10 ^ 11) : (fifth * x).ceilingInt = (n ⌈/⌉ 5 : Nat) := by
  obtain ⟨hfinite, hplace⟩ := place_fifth_mul hx
  have hunits : 0 < fifthOf n := by
    have hdown := (fifthOf_mem hpos).2
    have hwhole := Nat.mul_pos hpos unitsPerOne_pos
    omega
  obtain ⟨h, heq⟩ := eq_finite_of_place hfinite hunits hplace
  rw [heq, Nat.ceilDiv_eq_add_pred_div]
  have hdivision := Nat.div_add_mod n 5
  have hrest := Nat.mod_lt n (show 0 < 5 by decide)
  generalize n / 5 = q at hdivision
  generalize n % 5 = r at hdivision hrest
  subst hdivision
  by_cases hr : r = 0
  · subst hr
    obtain ⟨hnearest, hnear⟩ := nearWhole_fifthOf (q := q) (by omega) hlt
    have hclose := (isClose_roundInt_iff false h).mpr hnear
    simp only [ceilingInt]
    rw [if_pos hclose]
    unfold roundInt
    rw [Nat.add_zero, hnearest, signedUnits_false]
    omega
  · obtain ⟨hlow, hhigh⟩ := fifthOf_between (by omega) hrest hlt
    have hnot := not_nearWhole_of_between (by omega) hlow hhigh
    have hclose := mt (isClose_roundInt_iff false h).mp hnot
    have hceil : ceilInt false (fifthOf (5 * q + r)) = q + 1 :=
      ceilInt_eq_of_between (by omega) (by omega)
    simp only [ceilingInt]
    rw [if_neg hclose, hceil]
    omega

end Binary64

end ApneaScoring
