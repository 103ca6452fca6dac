import ApneaScoring.Proofs.Catalog

/-! A charge does not fall with the amount that it is for, so it is above zero past some amount:
zero itself for most. A ceiling takes a fifth of up to five times its tolerance for zero, and half
of the least number above zero is rounded to zero. -/

namespace ApneaScoring

theorem shortSignificand_add_spacing {units : Nat} (h : ShortSignificand units) :
    ShortSignificand (units + spacing units) := by
  obtain ⟨significand, hsignificand⟩ := h.spacing_dvd
  refine ⟨significand + 1, units.log2 - 52, ?_, ?_⟩
  · apply Nat.lt_of_mul_lt_mul_left (a := spacing units)
    rw [← hsignificand, Nat.mul_comm]
    exact lt_mul_spacing units
  · change _ = (significand + 1) * spacing units
    rw [Nat.add_mul, Nat.one_mul, Nat.mul_comm, ← hsignificand]

theorem add_spacing_le {u v : Nat} (hu : ShortSignificand u) (hv : ShortSignificand v)
    (h : u < v) : u + spacing u ≤ v := by
  have hdvd : spacing u ∣ spacing v :=
    Nat.pow_dvd_pow 2 (Nat.sub_le_sub_right (log2_mono (Nat.le_of_lt h)) 52)
  have hgap := Nat.dvd_sub (Nat.dvd_trans hdvd hv.spacing_dvd) hu.spacing_dvd
  have hle := Nat.le_of_dvd (by omega) hgap
  omega

namespace Binary64

variable {f : Binary64 → Binary64} {a b x bound : Binary64}

theorem lt_of_lt_of_le {c : Binary64} (hab : a.lt b = true) (hbc : b.le c = true) :
    a.lt c = true := by
  rw [lt_iff] at *
  rw [le_iff] at hbc
  exact ⟨hab.1, hbc.2.1, Int.lt_of_lt_of_le hab.2.2 hbc.2.2⟩

def successor (x : Binary64) : Binary64 :=
  ofUnits false (x.place.natAbs + spacing x.place.natAbs)

theorem successor_le (hbound : bound.IsMeasure) (hx : x.isFinite = true)
    (hlt : bound.lt x = true) : bound.successor.le x = true := by
  have hnonneg := (isMeasure_iff.mp hbound).2
  obtain ⟨-, hnan, hplace⟩ := lt_iff.mp hlt
  have hshort := (representable_place hbound.1).2
  have hstep := add_spacing_le hshort (representable_place hx).2 (by omega)
  refine le_iff.mpr ⟨ofUnits_ne_nan _ _, hnan, ?_⟩
  unfold successor
  rw [place_ofUnits _ (shortSignificand_add_spacing hshort), signedUnits_false]
  omega

/-- Of the amounts above zero, just those past a bound are charged for. -/
def ChargesPast (f : Binary64 → Binary64) (bound : Binary64) : Prop :=
  ∀ ⦃x : Binary64⦄, x.IsMeasure → zero.lt x = true →
    (zero.lt (f x) = true ↔ bound.lt x = true)

theorem Grows.pos_of_lt (hf : Grows f) (hbound : bound.IsMeasure)
    (hnext : bound.successor.IsMeasure) (hpos : zero.lt (f bound.successor) = true)
    (hx : x.IsMeasure) (hlt : bound.lt x = true) : zero.lt (f x) = true :=
  lt_of_lt_of_le hpos (hf.mono hnext hx (successor_le hbound hx.1 hlt))

/-- A charge that does not fall is settled at the bound and at the number after it. -/
theorem Grows.chargesPast (hf : Grows f) (hbound : bound.IsMeasure)
    (hnext : bound.successor.IsMeasure) (hpos : zero.lt (f bound.successor) = true)
    (hnone : (f bound).le zero = true) : ChargesPast f bound := by
  intro x hx _
  refine ⟨fun hcharged => ?_, hf.pos_of_lt hbound hnext hpos hx⟩
  rw [← not_le_iff_lt hx.ne_nan hbound.ne_nan]
  intro hle
  -- What is not past the bound costs no more than the bound does, which is nothing.
  have hfalls := lt_of_lt_of_le hcharged (le_trans (hf.mono hx hbound hle) hnone)
  rw [lt_iff] at hfalls
  omega

def least : Binary64 :=
  zero.successor

theorem least_mem : least.IsMeasure ∧ least.successor.IsMeasure ∧ zero.lt least = true := by
  decide +kernel

theorem Grows.chargesPast_zero (hf : Grows f) (hpos : zero.lt (f least) = true) :
    ChargesPast f zero := by
  intro x hx hlt
  exact iff_of_true (hf.pos_of_lt isMeasure_zero least_mem.1 hpos hx hlt) hlt

theorem grows_scale {c : Binary64} (hc : c.IsMeasure) : Grows (c * ·) where
  nonneg hx := by
    have hplace := place_mul_of_nonneg hc.1 hx.1 (isMeasure_iff.mp hc).2 (isMeasure_iff.mp hx).2
    refine le_iff.mpr ⟨zero_ne_nan, mul_ne_nan hc.1 hx.1, ?_⟩
    rw [place_zero, hplace]
    exact Int.natCast_nonneg _
  mono hx hy hxy :=
    mul_le_mul_left hc.1 (isMeasure_iff.mp hc).2 hx.1 hy.1 (isMeasure_iff.mp hx).2
      (le_iff.mp hxy).2.2

/-- What a number exceeds another by is not rounded to zero. -/
theorem zero_lt_sub (ha : a.IsMeasure) (hb : b.IsMeasure) (hlt : b.lt a = true) :
    (a - b).IsMeasure ∧ zero.lt (a - b) = true := by
  have hmeasure := ha.sub hb ((not_le_iff_lt ha.ne_nan hb.ne_nan).mpr hlt)
  refine ⟨hmeasure, lt_iff.mpr ⟨zero_ne_nan, hmeasure.ne_nan, ?_⟩⟩
  have hnonneg := (isMeasure_iff.mp hmeasure).2
  have hplaces := (lt_iff.mp hlt).2.2
  have hne : (a - b).place ≠ 0 := by
    rw [place_sub ha.1 hb.1]
    intro hzero
    have hsame := nearestPlace_eq_zero hzero
    omega
  rw [place_zero]
  omega

end Binary64

namespace Federations

open Binary64

/-- Five times the tolerance of a ceiling, in seconds. -/
def faint : Binary64 :=
  .ofDecimal false 5 (-12)

theorem chargesPast_begun : ChargesPast (fun x => ofInt (fifth * x).ceilingInt) faint := by
  have hfaint : faint.IsMeasure ∧ faint.successor.IsMeasure ∧
      zero.lt (ofInt (fifth * faint.successor).ceilingInt) = true ∧
      (ofInt (fifth * faint).ceilingInt).le zero = true := by decide +kernel
  obtain ⟨hmeasure, hnext, hpos, hnone⟩ := hfaint
  exact (grows_ceiling (isFraction_tenths (.inl rfl))).chargesPast hmeasure hnext hpos hnone

theorem chargesPast_half : ChargesPast (ofDecimal false 5 (-1) * ·) least := by
  have hhalf : zero.lt (ofDecimal false 5 (-1) * least.successor) = true ∧
      (ofDecimal false 5 (-1) * least).le zero = true := by decide +kernel
  exact (grows_mul (isFraction_tenths (.inr rfl))).chargesPast least_mem.1 least_mem.2.1
    hhalf.1 hhalf.2

theorem chargesPast_id : ChargesPast id zero := by
  apply grows_id.chargesPast_zero
  rw [id_eq]
  exact least_mem.2.2

theorem five_mem : (ofDecimal false 5 0).IsMeasure ∧
    zero.lt (ofDecimal false 5 0 + least) = true ∧
    zero.lt (ofDecimal false 5 0 * least) = true := by
  decide +kernel

theorem chargesPast_surcharge : ChargesPast (ofDecimal false 5 0 + ·) zero :=
  (grows_add five_mem.1).chargesPast_zero five_mem.2.1

theorem chargesPast_count : ChargesPast (ofDecimal false 5 0 * ·) zero :=
  (grows_scale five_mem.1).chargesPast_zero five_mem.2.2

end Federations

/-- The greatest amount that a calculation of the federations charges nothing for. -/
def Calculation.overlooked : Calculation → Binary64
  | ceiling _ => Federations.faint
  | binary .multiply factor _ =>
      if factor = Federations.tenths 5 then Binary64.least else .zero
  | _ => .zero

namespace Entry

variable {e : Entry} {given : Datum} {realized : Performance} {target : Component}
  {p : Penalization}

theorem Yields.delta_eq (h : e.Yields given realized target p) :
    p.delta = .only target (p.delta.get target) := by
  apply Performance.ext_get
  intro c
  by_cases hc : c = target
  · rw [hc]
    exact (Performance.get_only_self _ _).symm
  · rw [h.absent c hc]
    exact (Performance.get_only_of_ne _ hc).symm

theorem Yields.exists_ruleInput (h : e.Yields given realized target p) (haccepts : e.Accepts given)
    (hinput : e.hasInput = true) :
    ∃ x, p.ruleInput = some x ∧ x.IsMeasure ∧ Binary64.zero.lt x = true := by
  obtain ⟨x, hrecorded⟩ := Option.isSome_iff_exists.mp (h.isSome_ruleInput.trans hinput)
  obtain ⟨y, hy, hfinite, hlt⟩ := haccepts hinput
  obtain rfl := (h.ruleInput x hrecorded).unique hy
  exact ⟨x, hrecorded, ⟨hfinite, Binary64.le_of_lt hlt⟩, hlt⟩

theorem Yields.ruleInput_eq_none (h : e.Yields given realized target p)
    (hinput : e.hasInput = false) : p.ruleInput = none := by
  have hsome := h.isSome_ruleInput
  rw [hinput] at hsome
  exact Option.not_isSome_iff_eq_none.mp (Bool.eq_false_iff.mp hsome)

end Entry

/-- The penalization takes a number that is not negative from a component and nothing from any
other, and what it takes is more than nothing just under a condition. -/
def Penalization.CostsWhen (p : Penalization) (c : Component) (condition : Prop) : Prop :=
  ∃ x, p.delta = .only c (some x) ∧ Binary64.zero.le x = true ∧
    (Binary64.zero.lt x = true ↔ condition)

namespace Federations

open Binary64

variable {r : Rule} {e : Entry} {calculation : Calculation} {given : Datum}
  {realized : Performance} {primary target : Component} {p : Penalization}

theorem overlooked_half (c : Calculation) : (times (tenths 5) c).overlooked = least := by
  unfold times Calculation.overlooked
  dsimp only
  rw [if_pos rfl]

theorem overlooked_count : fivePerCount.overlooked = zero := by
  have hother : number 5 ≠ tenths 5 := by decide +kernel
  unfold fivePerCount times Calculation.overlooked
  dsimp only
  rw [if_neg hother]

theorem zero_lt_ofDecimal {n : Nat} (hn : 0 < n) : zero.lt (ofDecimal false n 0) = true := by
  have hint : ofDecimal false n 0 = ofInt n := by
    have hzero : (0 : Int) = .ofNat 0 := rfl
    unfold ofDecimal ofInt
    rw [if_neg (by omega), hzero]
    dsimp only
    rw [if_neg (by omega), decide_eq_false (by omega), Int.natAbs_natCast]
    exact congrArg (ofRatio false · 1) (Nat.mul_one n)
  have hone : zero.lt (ofInt 1) = true :=
    (isWhole_zero.lt_iff (isWhole_ofInt (by decide))).mpr Nat.zero_lt_one
  rw [hint]
  exact lt_of_lt_of_le hone (ofInt_le_ofInt (by omega))

theorem Kind.costsWhen (h : Kind e) (hcalculation : calculation ∈ e.calculation)
    (haccepts : e.Accepts given) (hyields : e.Yields given realized target p) :
    p.CostsWhen target (∀ amount ∈ p.ruleInput, calculation.overlooked.lt amount = true) := by
  obtain ⟨x, hx, hnonneg, hcharged⟩ : ∃ x,
      calculation.evaluate { input := p.ruleInput, realized } = .ok (some x) ∧
      zero.le x = true ∧ (zero.lt x = true ↔
        ∀ amount ∈ p.ruleInput, calculation.overlooked.lt amount = true) := by
    cases h with
    | card hnone =>
        rw [hnone] at hcalculation
        cases hcalculation
    | fixed id reason shortReason hn =>
        cases hcalculation
        rw [hyields.ruleInput_eq_none rfl]
        have hpositive := zero_lt_ofDecimal hn
        refine ⟨_, evaluate_number _, le_of_lt hpositive, iff_of_true hpositive ?_⟩
        intro amount hamount
        cases hamount
    | timed id reason shortReason label =>
        cases hcalculation
        obtain ⟨x, hrecorded, hx, hlt⟩ := hyields.exists_ruleInput haccepts rfl
        refine ⟨_, evaluate_onePerFiveSeconds hrecorded hx,
          (grows_ceiling (isFraction_tenths (.inl rfl))).nonneg hx, ?_⟩
        simp only [hrecorded, Option.mem_some_iff, forall_eq']
        exact chargesPast_begun hx hlt
    | counted id reason shortReason =>
        cases hcalculation
        obtain ⟨x, hrecorded, hx, hlt⟩ := hyields.exists_ruleInput haccepts rfl
        refine ⟨_, evaluate_fivePerCount hrecorded, (grows_scale five_mem.1).nonneg hx, ?_⟩
        simp only [hrecorded, Option.mem_some_iff, forall_eq', overlooked_count]
        exact chargesPast_count hx hlt
  have hdelta := Except.ok.inj ((hyields.deduction calculation hcalculation).symm.trans hx)
  exact ⟨x, hdelta ▸ hyields.delta_eq, hnonneg, hcharged⟩

/-- The short penalization of each rule, by what its calculation overlooks. -/
theorem exists_chargesPast (hr : r ∈ all) : ∃ primary target k calculation,
    r.ScoresBy primary target k ∧ k.IsMonotone ∧ r.shortCalculation = some calculation ∧
      ChargesPast k.charge calculation.overlooked := by
  simp only [all, List.mem_cons, List.not_mem_nil, or_false] at hr
  rcases hr with rfl | rfl | rfl | rfl | rfl | rfl | rfl
  · refine ⟨_, _, _, _, Aida.sta_scoresBy, begunScale_isMonotone (isFraction_tenths (.inl rfl)),
      rfl, ?_⟩
    rw [begunScale_charge]
    exact chargesPast_begun
  · refine ⟨_, _, _, _, Aida.dyn_scoresBy, partScale_isMonotone (isFraction_tenths (.inr rfl)),
      rfl, ?_⟩
    rw [overlooked_half]
    exact chargesPast_half
  · exact ⟨_, _, _, _, Aida.cwt_scoresBy, plainScale_isMonotone, rfl, chargesPast_id⟩
  · exact ⟨_, _, _, _, Cmas.sta_scoresBy, plainScale_isMonotone, rfl, chargesPast_id⟩
  · exact ⟨_, _, _, _, scoresBy_surcharge rfl rfl rfl rfl (by decide),
      surchargeScale_isMonotone, rfl, chargesPast_surcharge⟩
  · exact ⟨_, _, _, _, scoresBy_surcharge rfl rfl rfl rfl (by decide),
      surchargeScale_isMonotone, rfl, chargesPast_surcharge⟩
  · exact ⟨_, _, _, _, scoresBy_surcharge rfl rfl rfl rfl (by decide),
      surchargeScale_isMonotone, rfl, chargesPast_surcharge⟩

theorem short?_costsWhen (hr : r ∈ all) (hprimary : r.primary = some primary)
    (htarget : r.target = some target) : ∃ calculation, r.shortCalculation = some calculation ∧
      ∀ {announced realized : Performance}, (∀ a ∈ announced.get primary, a.IsMeasure) →
        (∀ b ∈ realized.get primary, b.IsMeasure) →
        let a := orZero (announced.get primary)
        let b := orZero (realized.get primary)
        b.lt a = true → ∃ p, r.short? announced realized = .ok (some p) ∧
          p.CostsWhen target (calculation.overlooked.lt (a - b) = true) := by
  obtain ⟨primary', target', k, calculation, hscores, hk, hcalculation, hpast⟩ :=
    exists_chargesPast hr
  obtain rfl := Option.some.inj (hprimary.symm.trans hscores.primary_eq)
  obtain rfl := Option.some.inj (htarget.symm.trans hscores.target_eq)
  refine ⟨calculation, hcalculation, ?_⟩
  intro announced realized ha hb a b hshort
  have hma := isMeasure_orZero ha
  have hmb := isMeasure_orZero hb
  obtain ⟨hmeasure, hlt⟩ := zero_lt_sub hma hmb hshort
  have hmade := hscores.short?_eq ha hb
  dsimp only at hmade
  rw [if_neg ((not_le_iff_lt hma.ne_nan hmb.ne_nan).mpr hshort)] at hmade
  exact ⟨_, hmade, _, rfl, hk.charge.nonneg hmeasure, hpast hmeasure hlt⟩

end Federations

namespace Session

open Federations

variable {r : Rule} {primary target : Component}

/-- Under the rules of the federations a penalization that is scored takes something from the
target and nothing else, past the little that its calculation overlooks. -/
theorem penalties_cost (session : Session) (hr : r ∈ Federations.all)
    (hprimary : r.primary = some primary) (htarget : r.target = some target) :
    (∀ e ∈ r.penalizations, ∀ calculation ∈ e.calculation, ∀ given, e.Accepts given →
      ∀ realized, ∃ p,
        (session.run (penalize (.definition r) (.text e.id) given realized)).1 = .ok p ∧
        e.Yields given realized target p ∧
        p.CostsWhen target
          (∀ amount ∈ p.ruleInput, calculation.overlooked.lt amount = true)) ∧
    ∃ calculation, r.shortCalculation = some calculation ∧
      ∀ announced realized : Performance, (∀ a ∈ announced.get primary, a.IsMeasure) →
        (∀ b ∈ realized.get primary, b.IsMeasure) →
        let a := Binary64.orZero (announced.get primary)
        let b := Binary64.orZero (realized.get primary)
        b.lt a = true → ∃ p,
          (session.run (short (.definition r) announced realized)).1 = .ok (some p) ∧
          p.CostsWhen target (calculation.overlooked.lt (a - b) = true) := by
  constructor
  · intro e he calculation hcalculation given haccepts realized
    obtain ⟨p, hp, hyields⟩ := exists_penalize hr htarget he haccepts realized
    refine ⟨p, ?_, hyields, (kind_of_mem hr e he).costsWhen hcalculation haccepts hyields⟩
    rw [run_penalize, hp]
    rfl
  · obtain ⟨calculation, hcalculation, hcosts⟩ := short?_costsWhen hr hprimary htarget
    refine ⟨calculation, hcalculation, ?_⟩
    intro announced realized ha hb a b hshort
    obtain ⟨p, hp, hcost⟩ := hcosts ha hb hshort
    refine ⟨p, ?_, hcost⟩
    rw [run_short, hp]
    rfl

def fiftyMetres : Performance where
  distance := some (.ofDecimal false 50 0)

def halfMetreLess : Performance where
  distance := some (.ofDecimal false 495 (-1))

/-- Half a metre short costs a quarter of a point, and two wrong turns cost ten. -/
theorem penalties_cost_dyn :
    (∃ p, (run {} (penalize (.definition Aida.dyn) (.text "NoWall") (.text "2") {})).1 =
        .ok p ∧ p.CostsWhen .points True) ∧
    ∃ p, (run {} (short (.definition Aida.dyn) fiftyMetres halfMetreLess)).1 = .ok (some p) ∧
      p.CostsWhen .points True := by
  have hdyn : Aida.dyn ∈ Federations.all := by simp [Federations.all]
  obtain ⟨hentries, calculation, hcalculation, hshort⟩ := penalties_cost {} hdyn rfl rfl
  constructor
  · have hturn : Aida.noWall ∈ Aida.dyn.penalizations := by simp [Aida.dyn, Aida.fields]
    obtain ⟨p, hp, hyields, x, hdelta, hnonneg, hcharged⟩ :=
      hentries _ hturn fivePerCount rfl _ (fun _ => ⟨_, denotes_two⟩) {}
    refine ⟨p, hp, x, hdelta, hnonneg, hcharged.trans (iff_of_true ?_ trivial)⟩
    intro amount hamount
    rw [(hyields.ruleInput amount hamount).unique denotes_two.1, overlooked_count]
    exact denotes_two.2.2
  · have hless : (∀ a ∈ fiftyMetres.get .distance, a.IsMeasure) ∧
        (∀ b ∈ halfMetreLess.get .distance, b.IsMeasure) ∧
        (Binary64.orZero (halfMetreLess.get .distance)).lt
          (Binary64.orZero (fiftyMetres.get .distance)) = true ∧
        Binary64.least.lt (Binary64.orZero (fiftyMetres.get .distance) -
          Binary64.orZero (halfMetreLess.get .distance)) = true := by decide +kernel
    have hhalf : Aida.dyn.shortCalculation = some (times (tenths 5) (shortage .distance)) := rfl
    obtain rfl := Option.some.inj (hhalf.symm.trans hcalculation)
    rw [overlooked_half] at hshort
    obtain ⟨hannounced, hrealized, hlt, hpast⟩ := hless
    obtain ⟨p, hp, x, hdelta, hnonneg, hcharged⟩ := hshort _ _ hannounced hrealized hlt
    exact ⟨p, hp, x, hdelta, hnonneg, hcharged.trans (iff_of_true hpast trivial)⟩

/-- A start off by less than its ceiling tells from none is free, though the input is accepted,
and so is a dive that falls short by the least number above zero where half a point is
charged. -/
theorem faintPenalties_free :
    (Aida.earlyStart ∈ Aida.sta.penalizations ∧ Aida.earlyStart.isCardOnly = false ∧
      (Binary64.ofDecimal false 1 (-12)).isFinite = true ∧
      Binary64.zero.lt (.ofDecimal false 1 (-12)) = true ∧
      (run {} (penalize (.definition Aida.sta) (.text Aida.earlyStart.id)
          (.float (.ofDecimal false 1 (-12))) {})).1.map (·.delta) =
        .ok (.only .points (some .zero))) ∧
    Binary64.least.IsMeasure ∧ Binary64.zero.lt Binary64.least = true ∧
    (run {} (short (.definition Aida.dyn) { distance := some Binary64.least }
        { distance := some .zero })).1.map (Option.map (·.delta)) =
      .ok (some (.only .points (some .zero))) := by
  have hstart : Aida.earlyStart ∈ Aida.sta.penalizations := by
    simp [Aida.sta, Aida.fields, Aida.starts]
  refine ⟨⟨hstart, rfl, ?_⟩, Binary64.least_mem.1, Binary64.least_mem.2.2, ?_⟩
  · decide +kernel
  · decide +kernel

end Session

end ApneaScoring
