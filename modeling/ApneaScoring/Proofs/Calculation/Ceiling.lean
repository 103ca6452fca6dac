import ApneaScoring.Proofs.Federations
import ApneaScoring.Proofs.Number.Value

namespace ApneaScoring

namespace Binary64

section

variable {a b : Binary64} {s : Bool} {u : Nat} {i : Int}

theorem ceil_toRat (s : Bool) (h : Representable u) : ⌈(finite s u h).toRat⌉ = ceilInt s u := by
  unfold toRat ceilInt
  rw [place_finite, Rat.ceil_intCast_div_natCast,
    Int.fdiv_eq_ediv_of_nonneg _ (Int.natCast_nonneg _)]

theorem floor_toRat (s : Bool) (h : Representable u) (hbelow : roundInt s u < ceilInt s u) :
    ⌊(finite s u h).toRat⌋ = roundInt s u := by
  have hnext : ceilInt s u = roundInt s u + 1 := by
    have hbeside := ceilInt_eq s u
    omega
  have hceil := ceilInt_mem s u
  rw [hnext, Int.add_mul, Int.one_mul] at hceil
  unfold toRat
  rw [place_finite, Int.floor_eq_iff, le_div_iff₀ unitsPerOne_cast_pos,
    div_lt_iff₀ unitsPerOne_cast_pos, add_mul, one_mul]
  constructor
  · exact_mod_cast (by omega : roundInt s u * unitsPerOne ≤ signedUnits s u)
  · by_contra hnot
    have hnearest := (two_mul_roundInt_mem s u).2
    have hpos : (0 : Int) < unitsPerOne := Int.natCast_pos.mpr unitsPerOne_pos
    have hge : roundInt s u * unitsPerOne + unitsPerOne ≤ signedUnits s u := by
      exact_mod_cast not_lt.mp hnot
    omega

theorem ceilingInt_eq_or (ha : a.isFinite = true) :
    a.ceilingInt = ⌊a.toRat⌋ ∨ a.ceilingInt = ⌈a.toRat⌉ := by
  cases a with
  | infinite s => cases ha
  | nan => cases ha
  | finite s u hu =>
      simp only [ceilingInt]
      split
      · rcases ceilInt_eq s u with hsame | hnext
        · exact .inr ((hsame ▸ ceil_toRat s hu).symm)
        · exact .inl (floor_toRat s hu (by omega)).symm
      · exact .inr (ceil_toRat s hu).symm

theorem place_ofInt_of_representable (h : Representable (i.natAbs * unitsPerOne)) :
    (ofInt i).place = i * unitsPerOne := by
  rw [place_ofInt]
  conv =>
    rw [← signedUnits_natAbs i, signedUnits_mul]
  exact nearestPlace_place (a := finite (decide (i < 0)) _ h) (by simp)

theorem representable_ceilingInt (ha : a.isFinite = true) :
    Representable (a.ceilingInt.natAbs * unitsPerOne) := by
  cases a with
  | infinite s => cases ha
  | nan => cases ha
  | finite s u hu =>
      have hshort := (representable_iff.mp hu).2
      have hnearest : Representable ((roundInt s u).natAbs * unitsPerOne) := by
        rw [roundInt, natAbs_signedUnits]
        exact representable_iff.mpr ⟨wholeUnits_lt hu, shortSignificand_wholeUnits hshort⟩
      simp only [ceilingInt]
      split
      · exact hnearest
      · next hfar =>
        rcases ceilInt_eq s u with hsame | hnext
        · rw [hsame]
          exact hnearest
        · have hsmall : u < 2 ^ 52 * unitsPerOne := by
            by_contra hlarge
            have hwhole := wholeUnits_of_dvd (unitsPerOne_dvd hshort (Nat.le_of_not_lt hlarge))
            refine hfar ((isClose_roundInt_iff s hu).mpr (.inl ?_))
            rw [wholeDistance, hwhole, Int.sub_self]
            exact Nat.zero_le _
          have hround : (roundInt s u).natAbs ≤ 2 ^ 52 := by
            rw [roundInt, natAbs_signedUnits]
            exact wholeUnits_le hsmall
          exact representable_whole (by omega)

theorem place_ofInt_ceilingInt (ha : a.isFinite = true) :
    (ofInt a.ceilingInt).place = a.ceilingInt * unitsPerOne :=
  place_ofInt_of_representable (representable_ceilingInt ha)

theorem isFinite_ofInt_ceilingInt (ha : a.isFinite = true) :
    (ofInt a.ceilingInt).isFinite = true := by
  refine isFinite_iff.mpr ⟨ofInt_ne_nan _, ?_⟩
  rw [place_ofInt_ceilingInt ha, Int.natAbs_mul, Int.natAbs_natCast]
  exact (representable_ceilingInt ha).1

theorem toRat_ofInt_ceilingInt (ha : a.isFinite = true) :
    (ofInt a.ceilingInt).toRat = a.ceilingInt :=
  toRat_of_place (place_ofInt_ceilingInt ha)

/-- How far a number may be from a whole one and count as that one: by the tolerance itself, or
by a part of either of the two. -/
def reach (a whole : Binary64) : ℚ :=
  max tolerance.toRat (max |(tolerance * a).toRat| |(tolerance * whole).toRat|)

theorem abs_toRat_sub_roundInt (s : Bool) (h : Representable u) :
    |(finite s u h).toRat - roundInt s u| = wholeDistance u / unitsPerOne := by
  have hdistance :
      (signedUnits s u - roundInt s u * unitsPerOne).natAbs = wholeDistance u := by
    rw [roundInt_mul_unitsPerOne]
    unfold wholeDistance
    cases s with
    | true =>
        rw [signedUnits_true, signedUnits_true]
        omega
    | false =>
        rw [signedUnits_false, signedUnits_false]
        omega
  have hsub : (finite s u h).toRat - roundInt s u =
      (signedUnits s u - roundInt s u * unitsPerOne : Int) / unitsPerOne := by
    unfold toRat
    rw [place_finite, Int.cast_sub, Int.cast_mul, Int.cast_natCast, sub_div,
      mul_div_cancel_right₀ _ unitsPerOne_cast_pos.ne']
  rw [hsub, abs_div, Nat.abs_cast, ← Int.cast_abs, ← Nat.cast_natAbs, hdistance]

theorem isClose_roundInt_iff_reach (s : Bool) (h : Representable u) :
    (finite s u h).isClose (ofInt (roundInt s u)) = true ↔
      |(finite s u h).toRat - roundInt s u| ≤ (finite s u h).reach (ofInt (roundInt s u)) := by
  have hbound : wholeDistance u < unitsBound := Nat.lt_of_le_of_lt (wholeDistance_le u) h.1
  have htolerance : tolerance.toRat = (toleranceUnits : ℚ) / unitsPerOne := by
    unfold toRat
    rw [place_tolerance, Int.cast_natCast]
  rw [isClose_roundInt_iff, abs_toRat_sub_roundInt, reach, htolerance, abs_toRat, abs_toRat,
    natAbs_place_tolerance_mul rfl, natAbs_place_tolerance_mul (isFinite_ofInt_roundInt s h),
    place_ofInt_roundInt s h, place_finite, natAbs_signedUnits, natAbs_signedUnits, le_max_iff,
    le_max_iff, div_le_div_iff_of_pos_right unitsPerOne_cast_pos,
    div_le_div_iff_of_pos_right unitsPerOne_cast_pos,
    div_le_div_iff_of_pos_right unitsPerOne_cast_pos, Nat.cast_le, Nat.cast_le, Nat.cast_le]
  unfold NearWhole
  omega

theorem roundInt_eq_of_abs_lt (s : Bool) (h : Representable u)
    (hnear : |(finite s u h).toRat - i| < 1 / 2) : roundInt s u = i := by
  have hround : |(finite s u h).toRat - roundInt s u| ≤ 1 / 2 := by
    rw [abs_toRat_sub_roundInt, div_le_div_iff₀ unitsPerOne_cast_pos two_pos, one_mul, mul_comm]
    exact_mod_cast two_mul_wholeDistance_le u
  have hdistance : |((roundInt s u - i : Int) : ℚ)| < 1 := by
    rw [Int.cast_sub, show (roundInt s u : ℚ) - i =
      ((finite s u h).toRat - i) - ((finite s u h).toRat - roundInt s u) by ring]
    refine lt_of_le_of_lt (abs_sub _ _) ?_
    linarith
  rw [← Int.cast_abs, ← Int.cast_one, Int.cast_lt, Int.abs_lt_one_iff] at hdistance
  omega

end

/-- What the ceiling of a finite number is: a whole number beside it, that below it only within
the reach of the tolerance. -/
structure IsCeilingOf (r x : Binary64) : Prop where
  isFinite : r.isFinite = true
  beside : r.toRat = ⌊x.toRat⌋ ∨ r.toRat = ⌈x.toRat⌉
  excess : r.toRat ≠ ⌈x.toRat⌉ → x.toRat - r.toRat ≤ x.reach r
  absorbs : ∀ n : Int, |x.toRat - n| < 1 / 2 → |x.toRat - n| ≤ x.reach (ofInt n) → r.toRat = n
  whole : ∀ n : Int, x.toRat = n → r.toRat = n

theorem isCeilingOf_ceilingInt {x : Binary64} (hx : x.isFinite = true) :
    (ofInt x.ceilingInt).IsCeilingOf x := by
  have hbeside := ceilingInt_eq_or hx
  have hvalue := toRat_ofInt_ceilingInt hx
  refine ⟨isFinite_ofInt_ceilingInt hx, ?_, ?_, ?_, ?_⟩
  · rw [hvalue, Int.cast_inj, Int.cast_inj]
    exact hbeside
  · cases x with
    | infinite s => cases hx
    | nan => cases hx
    | finite s u hu =>
        intro hbelow
        rw [hvalue, Ne, Int.cast_inj, ceil_toRat] at hbelow
        rw [hvalue]
        simp only [ceilingInt] at hbelow ⊢
        split at hbelow
        · next hclose =>
          rw [if_pos hclose]
          exact (le_abs_self _).trans ((isClose_roundInt_iff_reach s hu).mp hclose)
        · exact absurd rfl hbelow
  · cases x with
    | infinite s => cases hx
    | nan => cases hx
    | finite s u hu =>
        intro n hnear hreach
        have hround := roundInt_eq_of_abs_lt s hu hnear
        have hclose := (isClose_roundInt_iff_reach s hu).mpr (by rw [hround]; exact hreach)
        rw [hvalue]
        simp only [ceilingInt]
        rw [if_pos hclose, hround]
  · intro n hn
    rw [hn, Int.floor_intCast, Int.ceil_intCast, or_self] at hbeside
    rw [hvalue, hbeside]

theorem ceilingInt_ofInt_ceilingInt {x : Binary64} (hx : x.isFinite = true) :
    (ofInt x.ceilingInt).ceilingInt = x.ceilingInt := by
  have hvalue := toRat_ofInt_ceilingInt hx
  have hfixed := (isCeilingOf_ceilingInt (isFinite_ofInt_ceilingInt hx)).whole _ hvalue
  rw [toRat_ofInt_ceilingInt (isFinite_ofInt_ceilingInt hx), Int.cast_inj] at hfixed
  exact hfixed

end Binary64

namespace Calculation

/-- A ceiling of a finite number has an outcome, a whole number beside it; its own ceiling is the
same, and that of a number not below is not below. -/
theorem ceiling_tolerant {c : Calculation} {vars : Variables} {x : Binary64}
    (h : c.evaluate vars = .ok (some x)) (hx : x.isFinite = true) :
    ∃ r, (ceiling c).evaluate vars = .ok (some r) ∧ r.IsCeilingOf x ∧
      (ceiling (ceiling c)).evaluate vars = .ok (some r) ∧
      ∀ (d : Calculation) (vars' : Variables) (y : Binary64),
        d.evaluate vars' = .ok (some y) → y.isFinite = true → x.le y = true →
          ∃ s, (ceiling d).evaluate vars' = .ok (some s) ∧ r.le s = true := by
  have hceiling := evaluate_ceiling hx h
  refine ⟨_, hceiling, Binary64.isCeilingOf_ceilingInt hx, ?_, ?_⟩
  · rw [evaluate_ceiling (Binary64.isFinite_ofInt_ceilingInt hx) hceiling,
      Binary64.ceilingInt_ofInt_ceilingInt hx]
  · intro d vars' y hy hfinite hle
    refine ⟨_, evaluate_ceiling hfinite hy, ?_⟩
    exact Binary64.tolerantCeiling_mono hx hfinite (Binary64.le_iff.mp hle).2.2

open Binary64 Federations in
/-- Fifteen seconds are three fives, and sixteen are no fewer. -/
theorem ceiling_tolerant_fifteen :
    ∃ x r s, (times (tenths 2) input).evaluate { input := some (.ofInt 15) } = .ok (some x) ∧
      onePerFiveSeconds.evaluate { input := some (.ofInt 15) } = .ok (some r) ∧
      r.IsCeilingOf x ∧ r.toRat = 3 ∧
      (ceiling onePerFiveSeconds).evaluate { input := some (.ofInt 15) } = .ok (some r) ∧
      onePerFiveSeconds.evaluate { input := some (.ofInt 16) } = .ok (some s) ∧
      r.le s = true := by
  have hfifteen : (ofInt 15).IsWhole 15 := isWhole_ofInt (by decide)
  have hsixteen : (ofInt 16).IsWhole 16 := isWhole_ofInt (by decide)
  have hx : (times (tenths 2) input).evaluate { input := some (.ofInt 15) } =
      .ok (some (fifth * .ofInt 15)) := evaluate_times_tenths rfl
  have hy : (times (tenths 2) input).evaluate { input := some (.ofInt 16) } =
      .ok (some (fifth * .ofInt 16)) := evaluate_times_tenths rfl
  have hfinite := (place_fifth_mul hfifteen).1
  have hle : (fifth * .ofInt 15).le (fifth * .ofInt 16) = true :=
    (grows_mul (isFraction_tenths (.inl rfl))).mono hfifteen.isMeasure hsixteen.isMeasure
      (le_of_lt ((hfifteen.lt_iff hsixteen).mpr (by decide)))
  have hthree : (fifth * .ofInt 15).ceilingInt = 3 :=
    (ceilingInt_fifth_mul hfifteen (by decide) (by decide)).trans (by decide)
  obtain ⟨r, hr, hceiling, hagain, hmono⟩ := ceiling_tolerant hx hfinite
  obtain ⟨s, hs, hrs⟩ := hmono _ _ _ hy (place_fifth_mul hsixteen).1 hle
  refine ⟨_, r, s, hx, hr, hceiling, ?_, hagain, hs, hrs⟩
  obtain rfl := Option.some.inj (Except.ok.inj ((evaluate_ceiling hfinite hx).symm.trans hr))
  rw [toRat_ofInt_ceilingInt hfinite, hthree]
  norm_num

end Calculation

end ApneaScoring
