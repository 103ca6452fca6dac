import ApneaScoring.Proofs.Finiteness
import ApneaScoring.Proofs.Number.Ceiling
import ApneaScoring.Rule.Federations
import ApneaScoring.Submission

namespace ApneaScoring

namespace Binary64

/-- A function of measures that does not fall, nor below zero. -/
structure Grows (f : Binary64 → Binary64) : Prop where
  nonneg : ∀ {x}, x.IsMeasure → zero.le (f x) = true
  mono : ∀ {x y}, x.IsMeasure → y.IsMeasure → x.le y = true → (f x).le (f y) = true

def IsFraction (c : Binary64) : Prop :=
  c.isFinite = true ∧ 0 ≤ c.place ∧ c.place ≤ unitsPerOne

instance (c : Binary64) : Decidable c.IsFraction := by
  unfold IsFraction
  infer_instance

theorem IsMeasure.mul {c x : Binary64} (hc : c.IsFraction) (hx : x.IsMeasure) :
    (c * x).IsMeasure := by
  rw [isMeasure_iff] at *
  obtain ⟨hfinite, hnonneg, -⟩ := mul_mem hc.1 hc.2.1 hc.2.2 hx.1 hx.2
  exact ⟨hfinite, hnonneg⟩

theorem grows_id : Grows id where
  nonneg hx := hx.2
  mono _ _ hxy := hxy

theorem grows_mul {c : Binary64} (hc : c.IsFraction) : Grows (c * ·) where
  nonneg hx := (IsMeasure.mul hc hx).2
  mono hx hy hxy :=
    mul_le_mul_left hc.1 hc.2.1 hx.1 hy.1 (isMeasure_iff.mp hx).2 (le_iff.mp hxy).2.2

theorem zero_le_ofInt {i : Int} (h : 0 ≤ i) : zero.le (ofInt i) = true := by
  have hzero : zero.le (ofInt 0) = true := by
    rw [le_iff, place_ofInt, Int.zero_mul]
    exact ⟨zero_ne_nan, ofInt_ne_nan 0, Int.le_of_eq (nearestPlace_place zero_ne_nan).symm⟩
  exact le_trans hzero (ofInt_le_ofInt h)

theorem ceilingInt_zero : zero.ceilingInt = 0 := by decide +kernel

theorem grows_ceiling {c : Binary64} (hc : c.IsFraction) :
    Grows fun x => ofInt (c * x).ceilingInt where
  nonneg hx := by
    have hmeasure := isMeasure_iff.mp (IsMeasure.mul hc hx)
    apply zero_le_ofInt
    rw [← ceilingInt_zero]
    exact ceilingInt_mono isFinite_zero hmeasure.1 hmeasure.2
  mono hx hy hxy :=
    tolerantCeiling_mono (IsMeasure.mul hc hx).1 (IsMeasure.mul hc hy).1
      (le_iff.mp ((grows_mul hc).mono hx hy hxy)).2.2

theorem zero_le_zero_add {x : Binary64} (hx : zero.le x = true) :
    zero.le (zero + x) = true := by
  have hnan := (le_iff.mp hx).2.1
  rw [le_iff, zero_add hnan]
  refine ⟨zero_ne_nan, ?_, (le_iff.mp hx).2.2⟩
  rw [add_comm]
  exact add_ne_nan hnan isFinite_zero

theorem grows_add {c : Binary64} (hc : c.IsMeasure) : Grows (c + ·) where
  nonneg hx :=
    le_trans (zero_le_zero_add isMeasure_zero.2)
      (add_le_add hc.2 hx.2 isFinite_zero hx.1)
  mono hx hy hxy := add_le_add (le_refl hc.ne_nan) hxy hx.1 hy.1

end Binary64

namespace Calculation

variable {vars : Variables}

theorem evaluate_binary {op : Operator} {a b : Calculation} {x y : Binary64}
    (ha : a.evaluate vars = .ok (some x)) (hb : b.evaluate vars = .ok (some y)) :
    (binary op a b).evaluate vars = .ok (op.apply x y) :=
  evaluate_binary_eq_ok.mpr ⟨_, _, ha, hb, rfl⟩

theorem evaluate_ceiling {a : Calculation} {x : Binary64} (hx : x.isFinite = true)
    (ha : a.evaluate vars = .ok (some x)) :
    (ceiling a).evaluate vars = .ok (some (.ofInt x.ceilingInt)) := by
  refine evaluate_ceiling_eq_ok.mpr ⟨_, ha, ?_⟩
  rw [ceilingOf, Binary64.tolerantCeiling_eq hx]
  rfl

end Calculation

namespace Federations

variable {vars : Variables} {c : Component} {a b : Binary64}

theorem evaluate_number (n : Nat) :
    (number n).evaluate vars = .ok (some (.ofDecimal false n 0)) := rfl

theorem evaluate_tenths (n : Nat) :
    (tenths n).evaluate vars = .ok (some (.ofDecimal false n (-1))) := rfl

theorem evaluate_announced (hc : c ≠ .points) (ha : vars.announced.get c = some a) :
    (announced c).evaluate vars = .ok (some a) := by
  rw [← ha]
  cases c with
  | points => exact absurd rfl hc
  | _ => rfl

theorem evaluate_realized (hc : c ≠ .points) (hb : vars.realized.get c = some b) :
    (realized c).evaluate vars = .ok (some b) := by
  rw [← hb]
  cases c with
  | points => exact absurd rfl hc
  | _ => rfl

theorem evaluate_shortage (hc : c ≠ .points) (ha : vars.announced.get c = some a)
    (hb : vars.realized.get c = some b) :
    (shortage c).evaluate vars = .ok (some (a - b)) :=
  Calculation.evaluate_binary (evaluate_announced hc ha) (evaluate_realized hc hb)

theorem evaluate_times_tenths {n : Nat} {x : Calculation}
    (hx : x.evaluate vars = .ok (some a)) :
    (times (tenths n) x).evaluate vars = .ok (some (.ofDecimal false n (-1) * a)) :=
  Calculation.evaluate_binary (evaluate_tenths n) hx

theorem evaluate_plus_number {n : Nat} {x : Calculation}
    (hx : x.evaluate vars = .ok (some a)) :
    (plus (number n) x).evaluate vars = .ok (some (.ofDecimal false n 0 + a)) :=
  Calculation.evaluate_binary (evaluate_number n) hx

end Federations

/-- What a value of the primary component is worth, and what falling short by an amount
costs. -/
structure Scale where
  score : Binary64 → Binary64
  charge : Binary64 → Binary64

structure Scale.IsMonotone (k : Scale) : Prop where
  isMeasure_score : ∀ {x}, x.IsMeasure → (k.score x).IsMeasure
  score : Binary64.Grows k.score
  charge : Binary64.Grows k.charge

structure Rule.ScoresBy (r : Rule) (primary target : Component) (k : Scale) : Prop where
  primary_eq : r.primary = some primary
  target_eq : r.target = some target
  measures_target : r.measures target = true
  withPoints : ∀ {given x}, given.get primary = some x →
    ∃ realized, r.withPoints given = .ok realized ∧
      realized.get primary = some x ∧ realized.get target = some (k.score x)
  shortCalculation : ∃ calculation, r.shortCalculation = some calculation ∧
    ∀ {vars a b}, vars.announced.get primary = some a → vars.realized.get primary = some b →
      (a - b).IsMeasure → calculation.evaluate vars = .ok (some (k.charge (a - b)))

namespace Rule

variable {r : Rule} {primary : Component} {k : Scale} {points short : Calculation}

theorem withPoints_of_points (hpoints : r.hasPoints = true)
    (hprimary : r.primary = some primary) {given : Performance} {x y : Binary64}
    (hgiven : given.get primary = some x) (hy : r.points given = .ok y) :
    r.withPoints given = .ok (given.set .points (some y)) := by
  unfold withPoints
  rw [if_pos hpoints, hprimary]
  dsimp only
  rw [hgiven, if_pos Option.isSome_some, hy]
  rfl

theorem scoresBy_of_points (hpoints : r.hasPoints = true)
    (hprimary : r.primary = some primary) (hne : primary ≠ .points)
    (hcalculation : r.pointsCalculation = some points)
    (hscore : ∀ {vars x}, vars.realized.get primary = some x →
      points.evaluate vars = .ok (some (k.score x)))
    (hshort : r.shortCalculation = some short)
    (hcharge : ∀ {vars a b}, vars.announced.get primary = some a →
      vars.realized.get primary = some b → (a - b).IsMeasure →
        short.evaluate vars = .ok (some (k.charge (a - b)))) :
    r.ScoresBy primary .points k where
  primary_eq := hprimary
  target_eq := if_pos hpoints
  measures_target := hpoints
  withPoints {given x} hgiven := by
    have hrun : r.points given = .ok (k.score x) := by
      unfold Rule.points Calculation.run
      rw [if_pos hpoints, hcalculation]
      dsimp only
      rw [hscore hgiven]
      rfl
    refine ⟨_, withPoints_of_points hpoints hprimary hgiven hrun, ?_, ?_⟩
    · rw [Performance.get_set_of_ne _ _ hne, hgiven]
    · exact Performance.get_set_self _ _ _
  shortCalculation := ⟨short, hshort, hcharge⟩

theorem scoresBy_of_performance (hpoints : r.hasPoints = false)
    (hprimary : r.primary = some primary) (hmeasures : r.measures primary = true)
    (hscore : k.score = id) (hshort : r.shortCalculation = some short)
    (hcharge : ∀ {vars a b}, vars.announced.get primary = some a →
      vars.realized.get primary = some b → (a - b).IsMeasure →
        short.evaluate vars = .ok (some (k.charge (a - b)))) :
    r.ScoresBy primary primary k where
  primary_eq := hprimary
  target_eq := by
    unfold target
    rw [hpoints, hprimary]
    rfl
  measures_target := hmeasures
  withPoints {given x} hgiven := by
    refine ⟨given, ?_, hgiven, ?_⟩
    · unfold Rule.withPoints
      rw [hpoints]
      rfl
    · rw [hscore, hgiven]
      rfl
  shortCalculation := ⟨short, hshort, hcharge⟩

end Rule

namespace Federations

open Binary64

def plainScale : Scale where
  score := id
  charge := id

def partScale (n : Nat) : Scale where
  score := (ofDecimal false n (-1) * ·)
  charge := (ofDecimal false n (-1) * ·)

def begunScale (n : Nat) : Scale where
  score := (ofDecimal false n (-1) * ·)
  charge d := ofInt (ofDecimal false n (-1) * d).ceilingInt

def surchargeScale : Scale where
  score := id
  charge := (ofDecimal false 5 0 + ·)

theorem begunScale_charge (n : Nat) :
    (begunScale n).charge = fun d => ofInt (ofDecimal false n (-1) * d).ceilingInt := by
  simp only [begunScale]

theorem plainScale_isMonotone : plainScale.IsMonotone where
  isMeasure_score hx := hx
  score := grows_id
  charge := grows_id

theorem partScale_isMonotone {n : Nat} (hn : (ofDecimal false n (-1)).IsFraction) :
    (partScale n).IsMonotone where
  isMeasure_score hx := hx.mul hn
  score := grows_mul hn
  charge := grows_mul hn

theorem begunScale_isMonotone {n : Nat} (hn : (ofDecimal false n (-1)).IsFraction) :
    (begunScale n).IsMonotone where
  isMeasure_score hx := hx.mul hn
  score := grows_mul hn
  charge := by
    rw [begunScale_charge]
    exact grows_ceiling hn

theorem surchargeScale_isMonotone : surchargeScale.IsMonotone where
  isMeasure_score hx := hx
  score := grows_id
  charge := grows_add (by decide +kernel)

theorem isFraction_tenths {n : Nat} (hn : n = 2 ∨ n = 5) :
    (ofDecimal false n (-1)).IsFraction := by
  rcases hn with rfl | rfl
  · decide +kernel
  · decide +kernel

theorem Aida.sta_scoresBy : Aida.sta.ScoresBy .duration .points (begunScale 2) := by
  have hne : Component.duration ≠ .points := by decide
  refine Rule.scoresBy_of_points rfl rfl hne rfl ?_ rfl ?_
  · intro vars x hx
    exact evaluate_times_tenths (evaluate_realized hne hx)
  · intro vars a b ha hb hmeasure
    have hfinite := (hmeasure.mul (isFraction_tenths (.inl rfl))).1
    have hproduct := evaluate_times_tenths (n := 2) (evaluate_shortage hne ha hb)
    rw [begunScale_charge]
    exact Calculation.evaluate_ceiling hfinite hproduct

theorem Aida.dyn_scoresBy : Aida.dyn.ScoresBy .distance .points (partScale 5) := by
  have hne : Component.distance ≠ .points := by decide
  refine Rule.scoresBy_of_points rfl rfl hne rfl ?_ rfl ?_
  · intro vars x hx
    exact evaluate_times_tenths (evaluate_realized hne hx)
  · intro vars a b ha hb hmeasure
    exact evaluate_times_tenths (evaluate_shortage hne ha hb)

theorem Aida.cwt_scoresBy : Aida.cwt.ScoresBy .depth .points plainScale := by
  have hne : Component.depth ≠ .points := by decide
  refine Rule.scoresBy_of_points rfl rfl hne rfl ?_ rfl ?_
  · intro vars x hx
    exact evaluate_realized hne hx
  · intro vars a b ha hb hmeasure
    exact evaluate_shortage hne ha hb

theorem Cmas.sta_scoresBy : Cmas.sta.ScoresBy .duration .duration plainScale := by
  refine Rule.scoresBy_of_performance rfl rfl rfl rfl rfl ?_
  intro vars a b ha hb hmeasure
  exact evaluate_shortage (by decide) ha hb

theorem scoresBy_surcharge {r : Rule} {primary : Component} (hpoints : r.hasPoints = false)
    (hprimary : r.primary = some primary) (hmeasures : r.measures primary = true)
    (hshort : r.shortCalculation = some (Cmas.shortWithSurcharge primary))
    (hne : primary ≠ .points) : r.ScoresBy primary primary surchargeScale := by
  refine Rule.scoresBy_of_performance hpoints hprimary hmeasures rfl hshort ?_
  intro vars a b ha hb hmeasure
  exact evaluate_plus_number (evaluate_shortage hne ha hb)

/-- Every federation rule scores by one of the scales. -/
theorem exists_scoresBy {r : Rule} (h : r ∈ all) :
    ∃ primary target k, r.ScoresBy primary target k ∧ k.IsMonotone := by
  simp only [all, List.mem_cons, List.not_mem_nil, or_false] at h
  rcases h with rfl | rfl | rfl | rfl | rfl | rfl | rfl
  · exact ⟨_, _, _, Aida.sta_scoresBy,
      begunScale_isMonotone (isFraction_tenths (.inl rfl))⟩
  · exact ⟨_, _, _, Aida.dyn_scoresBy,
      partScale_isMonotone (isFraction_tenths (.inr rfl))⟩
  · exact ⟨_, _, _, Aida.cwt_scoresBy, plainScale_isMonotone⟩
  · exact ⟨_, _, _, Cmas.sta_scoresBy, plainScale_isMonotone⟩
  · exact ⟨_, _, _, scoresBy_surcharge rfl rfl rfl rfl (by decide),
      surchargeScale_isMonotone⟩
  · exact ⟨_, _, _, scoresBy_surcharge rfl rfl rfl rfl (by decide),
      surchargeScale_isMonotone⟩
  · exact ⟨_, _, _, scoresBy_surcharge rfl rfl rfl rfl (by decide),
      surchargeScale_isMonotone⟩

end Federations

end ApneaScoring
