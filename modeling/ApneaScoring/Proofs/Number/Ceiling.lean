import ApneaScoring.Calculation.Evaluation
import ApneaScoring.Proofs.Number.Order

/-! Whether the nearest whole number is close is decided on exact distances, since near a whole
number no difference is rounded; so the ceiling is monotone. -/

namespace ApneaScoring.Binary64

theorem ofInt_ne_nan (i : Int) : ofInt i ≠ nan := by
  unfold ofInt ofRatio
  exact ofUnits_ne_nan _ _

theorem place_ofInt (i : Int) : (ofInt i).place = nearestPlace (i * unitsPerOne) := by
  unfold ofInt ofRatio nearestPlace
  rw [place_ofUnits _ (shortSignificand_roundUnits _ _), Int.natAbs_mul, Int.natAbs_natCast]
  congr 1
  have hpos : (0 : Int) < unitsPerOne := Int.natCast_pos.mpr unitsPerOne_pos
  apply decide_eq_decide.mpr
  constructor
  · intro h
    exact Int.mul_neg_of_neg_of_pos h hpos
  · intro h
    by_contra hnonneg
    have hprod := Int.mul_nonneg (Int.not_lt.mp hnonneg) (Int.le_of_lt hpos)
    omega

theorem ofInt_le_ofInt {i j : Int} (h : i ≤ j) : (ofInt i).le (ofInt j) = true := by
  refine le_iff.mpr ⟨ofInt_ne_nan i, ofInt_ne_nan j, ?_⟩
  rw [place_ofInt, place_ofInt]
  exact nearestPlace_mono (Int.mul_le_mul_of_nonneg_right h (Int.natCast_nonneg _))

theorem unitsPerOne_dvd {units : Nat} (h : ShortSignificand units)
    (hlarge : 2 ^ 52 * unitsPerOne ≤ units) : unitsPerOne ∣ units := by
  obtain ⟨exponent, hexponent⟩ := exists_unitsPerOne_eq
  rw [hexponent] at hlarge ⊢
  exact h.pow_dvd hlarge

theorem spacing_dvd_unitsPerOne {units : Nat} (hsmall : units < 2 ^ 52 * unitsPerOne) :
    spacing units ∣ unitsPerOne := by
  obtain ⟨exponent, hexponent⟩ := exists_unitsPerOne_eq
  rw [hexponent] at hsmall ⊢
  exact spacing_dvd_pow hsmall

def wholeUnits (units : Nat) : Nat :=
  nearestEven units unitsPerOne * unitsPerOne

theorem wholeUnits_of_dvd {units : Nat} (h : unitsPerOne ∣ units) :
    wholeUnits units = units := by
  obtain ⟨quotient, hquotient⟩ := h
  have hmul : units = quotient * unitsPerOne := by
    rw [hquotient]
    exact Nat.mul_comm _ _
  rw [wholeUnits, hmul, nearestEven_mul_right quotient unitsPerOne_pos]

theorem wholeUnits_le {units : Nat} (hsmall : units < 2 ^ 52 * unitsPerOne) :
    nearestEven units unitsPerOne ≤ 2 ^ 52 := by
  have hquotient : units / unitsPerOne < 2 ^ 52 :=
    Nat.div_lt_of_lt_mul (by rw [Nat.mul_comm]; exact hsmall)
  exact Nat.le_trans (nearestEven_le units unitsPerOne) hquotient

theorem shortSignificand_wholeUnits {units : Nat} (h : ShortSignificand units) :
    ShortSignificand (wholeUnits units) := by
  by_cases hlarge : 2 ^ 52 * unitsPerOne ≤ units
  · rw [wholeUnits_of_dvd (unitsPerOne_dvd h hlarge)]
    exact h
  · have hle := wholeUnits_le (Nat.lt_of_not_le hlarge)
    obtain ⟨exponent, hexponent⟩ := exists_unitsPerOne_eq
    rw [hexponent] at hle
    rw [wholeUnits, hexponent]
    exact shortSignificand_mul_pow exponent (by omega)

theorem wholeUnits_lt {units : Nat} (h : Representable units) :
    wholeUnits units < unitsBound := by
  by_cases hlarge : 2 ^ 52 * unitsPerOne ≤ units
  · rw [wholeUnits_of_dvd (unitsPerOne_dvd (representable_iff.mp h).2 hlarge)]
    exact h.1
  · calc
      wholeUnits units ≤ 2 ^ 52 * unitsPerOne :=
        Nat.mul_le_mul_right _ (wholeUnits_le (Nat.lt_of_not_le hlarge))
      _ < unitsBound := by decide +kernel

theorem signedUnits_mul (s : Bool) (n m : Nat) :
    signedUnits s n * m = signedUnits s (n * m) := by
  cases s with
  | true => rw [signedUnits_true, signedUnits_true, Int.natCast_mul, Int.neg_mul]
  | false => rw [signedUnits_false, signedUnits_false, Int.natCast_mul]

theorem roundInt_mul_unitsPerOne (s : Bool) (u : Nat) :
    roundInt s u * unitsPerOne = signedUnits s (wholeUnits u) := by
  unfold roundInt wholeUnits
  rw [signedUnits_mul]

theorem place_ofInt_roundInt (s : Bool) {u : Nat} (h : Representable u) :
    (ofInt (roundInt s u)).place = signedUnits s (wholeUnits u) := by
  have hwhole : Representable (wholeUnits u) :=
    representable_iff.mpr
      ⟨wholeUnits_lt h, shortSignificand_wholeUnits (representable_iff.mp h).2⟩
  rw [place_ofInt, roundInt_mul_unitsPerOne]
  exact nearestPlace_place (a := finite s (wholeUnits u) hwhole) (by simp)

theorem isFinite_ofInt_roundInt (s : Bool) {u : Nat} (h : Representable u) :
    (ofInt (roundInt s u)).isFinite = true := by
  rw [isFinite_iff, place_ofInt_roundInt s h, natAbs_signedUnits]
  exact ⟨ofInt_ne_nan _, wholeUnits_lt h⟩

/-- The exact distance of a magnitude from the nearest whole number, in units. -/
def wholeDistance (units : Nat) : Nat :=
  ((wholeUnits units : Int) - units).natAbs

theorem two_mul_wholeDistance_le (units : Nat) :
    2 * wholeDistance units ≤ unitsPerOne := by
  have hup := two_mul_nearestEven_mul_le units unitsPerOne_pos
  have hdown := two_mul_le_nearestEven_mul units unitsPerOne_pos
  unfold wholeDistance wholeUnits
  omega

theorem wholeDistance_le (units : Nat) : wholeDistance units ≤ units := by
  have hdistance := two_mul_wholeDistance_le units
  have hup := two_mul_nearestEven_mul_le units unitsPerOne_pos
  by_cases hzero : nearestEven units unitsPerOne = 0
  · simp [wholeDistance, wholeUnits, hzero]
  · have hone : 1 * unitsPerOne ≤ nearestEven units unitsPerOne * unitsPerOne :=
      Nat.mul_le_mul_right _ (Nat.pos_of_ne_zero hzero)
    omega

/-- The difference from the nearest whole number needs no rounding. -/
theorem shortSignificand_wholeDistance {units : Nat} (h : ShortSignificand units) :
    ShortSignificand (wholeDistance units) := by
  by_cases hlarge : 2 ^ 52 * unitsPerOne ≤ units
  · have hwhole := wholeUnits_of_dvd (unitsPerOne_dvd h hlarge)
    rw [wholeDistance, hwhole, Int.sub_self]
    exact shortSignificand_zero
  · have hspacing := spacing_dvd_unitsPerOne (Nat.lt_of_not_le hlarge)
    have hdvd : spacing units ∣ wholeDistance units := by
      rw [wholeDistance, ← Int.natCast_dvd]
      exact Int.dvd_sub
        (Int.natCast_dvd_natCast.mpr (Nat.dvd_mul_left_of_dvd hspacing _))
        (Int.natCast_dvd_natCast.mpr h.spacing_dvd)
    obtain ⟨significand, hsignificand⟩ := hdvd
    refine ⟨significand, units.log2 - 52, ?_, ?_⟩
    · have hlt := lt_mul_spacing units
      have hle := wholeDistance_le units
      rw [hsignificand, Nat.mul_comm] at hle
      exact Nat.le_of_mul_le_mul_right (Nat.le_trans hle (Nat.le_of_lt hlt))
        (spacing_pos units)
    · rw [hsignificand, Nat.mul_comm]
      rfl

def toleranceUnits : Nat :=
  tolerance.place.natAbs

theorem isFinite_tolerance : tolerance.isFinite = true := by decide +kernel

theorem place_tolerance : tolerance.place = toleranceUnits := by decide +kernel

theorem four_mul_toleranceUnits_le : 4 * toleranceUnits ≤ unitsPerOne := by
  decide +kernel

/-- A magnitude close to the nearest whole number: the exact distance is within the
tolerance, absolute or in proportion to one of the two. -/
def NearWhole (units : Nat) : Prop :=
  wholeDistance units ≤ toleranceUnits ∨
    wholeDistance units ≤ roundUnits (toleranceUnits * wholeUnits units) unitsPerOne ∨
    wholeDistance units ≤ roundUnits (toleranceUnits * units) unitsPerOne

theorem natAbs_place_tolerance_mul {a : Binary64} (ha : a.isFinite = true) :
    (tolerance * a).place.natAbs =
      min (roundUnits (toleranceUnits * a.place.natAbs) unitsPerOne) unitsBound := by
  rw [natAbs_place_mul isFinite_tolerance ha]
  rfl

theorem isClose_roundInt_iff (s : Bool) {u : Nat} (h : Representable u) :
    (finite s u h).isClose (ofInt (roundInt s u)) = true ↔ NearWhole u := by
  have hfinite := isFinite_ofInt_roundInt s h
  have hplace := place_ofInt_roundInt s h
  have hdistance : ((ofInt (roundInt s u) - finite s u h).abs).place = wholeDistance u := by
    have habs : (signedUnits s (wholeUnits u) - signedUnits s u).natAbs =
        wholeDistance u := by
      unfold wholeDistance
      cases s with
      | true =>
          rw [signedUnits_true, signedUnits_true]
          omega
      | false => rw [signedUnits_false, signedUnits_false]
    have hbound : wholeDistance u ≤ unitsBound := by
      have hle := wholeDistance_le u
      have hlt := h.1
      omega
    rw [place_abs, place_sub hfinite rfl, hplace, place_finite]
    unfold nearestPlace
    rw [natAbs_signedUnits, habs, roundUnits_one_of_short
      (shortSignificand_wholeDistance (representable_iff.mp h).2), Nat.min_eq_left hbound]
  have hnan : (ofInt (roundInt s u) - finite s u h).abs ≠ nan :=
    abs_ne_nan (sub_ne_nan hfinite (by simp))
  have hle : ∀ {b : Binary64}, b ≠ nan →
      ((ofInt (roundInt s u) - finite s u h).abs.le b = true ↔
        (wholeDistance u : Int) ≤ b.place) := by
    intro b hb
    rw [le_iff, hdistance]
    simp [hnan, hb]
  have hproduct : ∀ {a : Binary64}, a.isFinite = true →
      ((ofInt (roundInt s u) - finite s u h).abs.le (tolerance * a).abs = true ↔
        wholeDistance u ≤ roundUnits (toleranceUnits * a.place.natAbs) unitsPerOne) := by
    intro a ha
    have hlt := h.1
    have hdist := wholeDistance_le u
    rw [hle (abs_ne_nan (mul_ne_nan isFinite_tolerance ha)), place_abs,
      natAbs_place_tolerance_mul ha]
    omega
  have heqv : (finite s u h).eqv (ofInt (roundInt s u)) = true →
      wholeDistance u = 0 := by
    rw [eqv_iff, hplace, place_finite]
    intro heq
    have hplaces := heq.2.2
    cases s <;>
      simp only [signedUnits_true, signedUnits_false, wholeDistance] at hplaces ⊢ <;>
      omega
  unfold isClose NearWhole
  simp only [Bool.or_eq_true]
  rw [hproduct hfinite, hproduct (a := finite s u h) rfl,
    hle (ne_nan_of_isFinite isFinite_tolerance), place_tolerance, hplace,
    natAbs_signedUnits, place_finite, natAbs_signedUnits, Int.ofNat_le]
  constructor
  · rintro (((heq | hwhole) | hself) | habsolute)
    · have hzero := heqv heq
      exact .inl (by omega)
    · exact .inr (.inl hwhole)
    · exact .inr (.inr hself)
    · exact .inl habsolute
  · rintro (habsolute | hwhole | hself)
    · exact .inr habsolute
    · exact .inl (.inl (.inr hwhole))
    · exact .inl (.inr hself)

theorem NearWhole.between {a b : Nat} (ha : ShortSignificand a) (hb : ShortSignificand b)
    (hwhole : wholeUnits a = wholeUnits b) (habove : wholeUnits a ≤ a) (hle : a ≤ b)
    (h : NearWhole b) : NearWhole a := by
  have hdistance : wholeDistance b = wholeDistance a + (b - a) := by
    unfold wholeDistance
    omega
  rcases Nat.lt_or_eq_of_le hle with hlt | rfl
  · rcases h with habsolute | hwhole' | hself
    · exact .inl (by omega)
    · rw [← hwhole] at hwhole'
      exact .inr (.inl (by omega))
    · have hgrowth := roundUnits_mul_le_add four_mul_toleranceUnits_le unitsPerOne_pos
        ha hb hlt
      exact .inr (.inr (by omega))
  · exact h

theorem NearWhole.between_below {a b : Nat} (hwhole : wholeUnits a = wholeUnits b)
    (hbelow : b ≤ wholeUnits b) (hle : a ≤ b) (h : NearWhole a) : NearWhole b := by
  have hdistance : wholeDistance b ≤ wholeDistance a := by
    unfold wholeDistance
    omega
  rcases h with habsolute | hwhole' | hself
  · exact .inl (by omega)
  · rw [hwhole] at hwhole'
    exact .inr (.inl (by omega))
  · have hround := roundUnits_mono unitsPerOne (Nat.mul_le_mul_left toleranceUnits hle)
    exact .inr (.inr (by omega))

def ceilingInt : Binary64 → Int
  | finite s u h =>
      if (finite s u h).isClose (ofInt (roundInt s u)) then roundInt s u else ceilInt s u
  | _ => 0

theorem tolerantCeiling_eq {a : Binary64} (h : a.isFinite = true) :
    a.tolerantCeiling = .ok (ofInt a.ceilingInt) := by
  cases a with
  | finite s u hu =>
      simp only [tolerantCeiling, ceilingInt]
      split <;> rfl
  | infinite s => cases h
  | nan => cases h

theorem two_mul_roundInt_mem (s : Bool) (u : Nat) :
    2 * (roundInt s u * unitsPerOne) ≤ 2 * signedUnits s u + unitsPerOne ∧
      2 * signedUnits s u ≤ 2 * (roundInt s u * unitsPerOne) + unitsPerOne := by
  have hdistance := two_mul_wholeDistance_le u
  rw [roundInt_mul_unitsPerOne]
  unfold wholeDistance at hdistance
  cases s <;> simp only [signedUnits_true, signedUnits_false] <;> omega

theorem ceilInt_mem (s : Bool) (u : Nat) :
    signedUnits s u ≤ ceilInt s u * unitsPerOne ∧
      ceilInt s u * unitsPerOne < signedUnits s u + unitsPerOne := by
  have hpos : (0 : Int) < unitsPerOne := Int.natCast_pos.mpr unitsPerOne_pos
  have hlow := Int.ediv_mul_le (-signedUnits s u) (Int.ne_of_gt hpos)
  have hhigh := Int.lt_ediv_add_one_mul_self (-signedUnits s u) hpos
  unfold ceilInt
  rw [Int.fdiv_eq_ediv_of_nonneg _ (Int.le_of_lt hpos), Int.neg_mul]
  rw [Int.add_mul, Int.one_mul] at hhigh
  omega

theorem ceilInt_eq (s : Bool) (u : Nat) :
    ceilInt s u = roundInt s u ∨ ceilInt s u = roundInt s u + 1 := by
  have hpos : (0 : Int) < unitsPerOne := Int.natCast_pos.mpr unitsPerOne_pos
  have hnearest := two_mul_roundInt_mem s u
  have hceil := ceilInt_mem s u
  have hlow : roundInt s u < ceilInt s u + 1 := by
    apply Int.lt_of_mul_lt_mul_right (a := unitsPerOne) _ (Int.le_of_lt hpos)
    rw [Int.add_mul, Int.one_mul]
    omega
  have hhigh : ceilInt s u < roundInt s u + 2 := by
    apply Int.lt_of_mul_lt_mul_right (a := unitsPerOne) _ (Int.le_of_lt hpos)
    rw [Int.add_mul]
    omega
  omega

theorem roundInt_mono {s t : Bool} {u v : Nat} (h : signedUnits s u ≤ signedUnits t v) :
    roundInt s u ≤ roundInt t v := by
  unfold roundInt
  cases s with
  | true =>
      cases t with
      | true =>
          rw [signedUnits_true, signedUnits_true] at h ⊢
          have hmono := nearestEven_mono unitsPerOne (show v ≤ u by omega)
          exact Int.neg_le_neg (Int.ofNat_le.mpr hmono)
      | false =>
          simp only [signedUnits_true, signedUnits_false]
          omega
  | false =>
      cases t with
      | true =>
          simp only [signedUnits_true, signedUnits_false] at h ⊢
          have hu : u = 0 := by omega
          have hv : v = 0 := by omega
          subst hu hv
          simp [nearestEven]
      | false =>
          rw [signedUnits_false, signedUnits_false] at h ⊢
          exact Int.ofNat_le.mpr (nearestEven_mono unitsPerOne (Int.ofNat_le.mp h))

theorem ceilInt_mono {s t : Bool} {u v : Nat} (h : signedUnits s u ≤ signedUnits t v) :
    ceilInt s u ≤ ceilInt t v := by
  have hpos : (0 : Int) < unitsPerOne := Int.natCast_pos.mpr unitsPerOne_pos
  have hs := ceilInt_mem s u
  have ht := ceilInt_mem t v
  have hlt : ceilInt s u < ceilInt t v + 1 := by
    apply Int.lt_of_mul_lt_mul_right (a := unitsPerOne) _ (Int.le_of_lt hpos)
    rw [Int.add_mul, Int.one_mul]
    omega
  omega

theorem nearWhole_of_le {s t : Bool} {u v : Nat} (hu : Representable u)
    (hv : Representable v) (hle : signedUnits s u ≤ signedUnits t v)
    (hround : roundInt s u = roundInt t v) (habove : roundInt s u < ceilInt s u)
    (h : NearWhole v) : NearWhole u := by
  have hwhole : signedUnits s (wholeUnits u) = signedUnits t (wholeUnits v) := by
    rw [← roundInt_mul_unitsPerOne, ← roundInt_mul_unitsPerOne, hround]
  have hlt : signedUnits s (wholeUnits u) < signedUnits s u := by
    have hnext : ceilInt s u = roundInt s u + 1 := by
      have := ceilInt_eq s u
      omega
    have hhigh := (ceilInt_mem s u).2
    rw [hnext, Int.add_mul, Int.one_mul, roundInt_mul_unitsPerOne] at hhigh
    omega
  cases s with
  | false =>
      cases t with
      | false =>
          simp only [signedUnits_false] at hwhole hlt hle
          exact NearWhole.between (representable_iff.mp hu).2 (representable_iff.mp hv).2
            (by omega) (by omega) (by omega) h
      | true =>
          simp only [signedUnits_false, signedUnits_true] at hwhole hlt hle
          omega
  | true =>
      cases t with
      | false =>
          simp only [signedUnits_false, signedUnits_true] at hwhole hlt hle
          omega
      | true =>
          simp only [signedUnits_true] at hwhole hlt hle
          exact NearWhole.between_below (by omega) (by omega) (by omega) h

theorem ceilingInt_mono {a b : Binary64} (ha : a.isFinite = true) (hb : b.isFinite = true)
    (hle : a.place ≤ b.place) : a.ceilingInt ≤ b.ceilingInt := by
  cases a with
  | infinite s => cases ha
  | nan => cases ha
  | finite s u hu =>
      cases b with
      | infinite t => cases hb
      | nan => cases hb
      | finite t v hv =>
          have hround := roundInt_mono hle
          have hceil := ceilInt_mono hle
          have hu' := ceilInt_eq s u
          have hv' := ceilInt_eq t v
          have hnear : roundInt s u = roundInt t v → roundInt s u < ceilInt s u →
              NearWhole v → NearWhole u := nearWhole_of_le hu hv hle
          rw [← isClose_roundInt_iff t hv, ← isClose_roundInt_iff s hu] at hnear
          simp only [ceilingInt]
          split <;> split
          · exact hround
          · omega
          · next hclose hclose' =>
              by_contra hlt
              exact hclose (hnear (by omega) (by omega) hclose')
          · exact hceil

theorem tolerantCeiling_mono {a b : Binary64} (ha : a.isFinite = true)
    (hb : b.isFinite = true) (hle : a.place ≤ b.place) :
    (ofInt a.ceilingInt).le (ofInt b.ceilingInt) = true :=
  ofInt_le_ofInt (ceilingInt_mono ha hb hle)

end ApneaScoring.Binary64
