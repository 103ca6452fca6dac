import ApneaScoring.Proofs.Federations
import ApneaScoring.Proofs.Submission

/-! Under a rule that scores by a scale, the final value is what the realized value is worth less
what is owed for falling short and what the penalizations deduct. Each step of that is monotone,
the jump from nothing owed to a charge included. -/

namespace ApneaScoring

namespace Scale

open Binary64

def owed (k : Scale) (a b : Binary64) : Binary64 :=
  if a.le b then zero else zero + orZero (some (k.charge (a - b)))

/-- The final value of a realized one, the deductions of the penalizations being given
and whether a red card is shown. -/
def final (k : Scale) (announced : Option Binary64) (x : Binary64) (others : List Binary64)
    (red : Bool) : Binary64 :=
  if red then zero
  else
    let owed := k.owed (orZero announced) (orZero (some x))
    (k.score x - others.foldl (· + ·) owed).floored

variable {k : Scale}

theorem owed_le (hk : k.IsMonotone) {a a' b b' : Binary64} (ha : a.IsMeasure)
    (ha' : a'.IsMeasure) (hb : b.IsMeasure) (hb' : b'.IsMeasure) (haa : a.le a' = true)
    (hbb : b'.le b = true) : (k.owed a b).le (k.owed a' b') = true := by
  unfold owed
  by_cases hshort : a.le b = true
  · rw [if_pos hshort]
    by_cases hshort' : a'.le b' = true
    · rw [if_pos hshort']
      exact le_refl zero_ne_nan
    · -- Here a charge appears where nothing was owed.
      rw [if_neg hshort']
      have hcharge := hk.charge.nonneg (ha'.sub hb' hshort')
      exact zero_le_zero_add ((le_orZero none _).trans hcharge)
  · have hshort' : ¬ a'.le b' = true := fun h => hshort (le_trans haa (le_trans h hbb))
    rw [if_neg hshort, if_neg hshort']
    have hcharge := hk.charge.mono (ha.sub hb hshort) (ha'.sub hb' hshort')
      (sub_le_sub haa hbb ha.1 ha'.1)
    rw [add_comm zero, add_comm zero]
    exact add_le_add ((le_orZero _ _).trans hcharge) (le_refl zero_ne_nan) rfl rfl

theorem final_le (hk : k.IsMonotone) {announced announced' : Option Binary64}
    {x x' : Binary64} {others : List Binary64} (red : Bool)
    (ha : ∀ a ∈ announced, a.IsMeasure) (ha' : ∀ a ∈ announced', a.IsMeasure)
    (hx : x.IsMeasure) (hx' : x'.IsMeasure) (hothers : ∀ d ∈ others, d.isFinite = true)
    (haa : (orZero announced').le (orZero announced) = true) (hxx : x.le x' = true) :
    (k.final announced x others red).le (k.final announced' x' others red) = true := by
  unfold final
  cases red with
  | true => exact le_refl zero_ne_nan
  | false =>
      rw [if_neg Bool.false_ne_true, if_neg Bool.false_ne_true]
      have howed := owed_le hk (isMeasure_orZero ha') (isMeasure_orZero ha)
        (isMeasure_orZero (hx'.forall_mem rfl)) (isMeasure_orZero (hx.forall_mem rfl)) haa
        ((le_orZero (some x) (some x')).trans hxx)
      apply floored_le
      exact sub_le_sub (hk.score.mono hx hx' hxx) (foldl_add_le hothers howed)
        (hk.isMeasure_score hx).1 (hk.isMeasure_score hx').1

end Scale

namespace Submission

def deltas (s : Submission) (c : Component) : List Binary64 :=
  s.genuine.map fun p => Binary64.orZero (p.delta.get c)

def isRed (s : Submission) : Bool :=
  decide (Card.red ∈ s.card :: s.genuine.map (·.card))

theorem isFinite_deltas {s : Submission} (h : ∀ p ∈ s.penalizations, p.delta.IsFinite)
    (c : Component) : ∀ d ∈ s.deltas c, d.isFinite = true := by
  intro d hd
  obtain ⟨p, hp, rfl⟩ := List.mem_map.mp hd
  exact Binary64.isFinite_orZero (h p (List.mem_filter.mp hp).1 c)

end Submission

namespace Rule

variable {r : Rule} {s : Submission} {primary target : Component} {k : Scale}

/-- A short penalization shows yellow, so it makes no card red. -/
theorem card_recorded_eq_red_iff (r : Rule) (s : Submission) (realized : Performance)
    {short : Option Penalization} (hshort : ∀ p ∈ short, p.card = .yellow) :
    (r.recorded s realized short).card = .red ↔ s.isRed = true := by
  change penalizationsCard (short.toList ++ s.genuine) s.card = .red ↔ _
  unfold Submission.isRed
  rw [penalizationsCard_eq_red_iff, decide_eq_true_iff]
  cases short with
  | none => exact Iff.rfl
  | some p =>
      have hyellow := hshort p rfl
      simp [hyellow]

theorem get_final_recorded {short : Option Penalization} {realized : Performance}
    {v : Binary64} (hoverride : s.override = none) (htarget : r.target = some target)
    (hmeasures : r.measures target = true) (hv : realized.get target = some v)
    (hshort : ∀ p ∈ short, p.card = .yellow) :
    (r.recorded s realized short).final.get target =
      some (if s.isRed then .zero
        else (v - (s.deltas target).foldl (· + ·) (deduction short.toList target)).floored) := by
  have hred := card_recorded_eq_red_iff r s realized hshort
  unfold recorded at hred ⊢
  dsimp only at hred ⊢
  rw [hoverride]
  unfold finalPerformance
  rw [Option.getD_none, Performance.get_ofComponents]
  unfold finalComponent
  rw [if_pos hmeasures, hv, htarget, deduction_append]
  rw [Option.map_some]
  congr 1
  exact if_congr (by rw [hred]; simp) rfl rfl

theorem ScoresBy.short?_eq (h : r.ScoresBy primary target k)
    {announced realized : Performance} (ha : ∀ a ∈ announced.get primary, a.IsMeasure)
    (hb : ∀ b ∈ realized.get primary, b.IsMeasure) :
    let a := Binary64.orZero (announced.get primary)
    let b := Binary64.orZero (realized.get primary)
    r.short? announced realized =
      .ok (if a.le b then none
        else some (shortPenalization target (some (k.charge (a - b))))) := by
  intro a b
  obtain ⟨calculation, hcalculation, hcharge⟩ := h.shortCalculation
  have hshortfall : r.shortfall? announced realized = if a.le b then none else some ⟨a, b⟩ :=
    shortfall?_eq h.primary_eq hcalculation
  have hma := Binary64.isMeasure_orZero ha
  have hmb := Binary64.isMeasure_orZero hb
  unfold short?
  rw [h.primary_eq, h.target_eq, hcalculation, hshortfall]
  by_cases hle : a.le b = true
  · rw [if_pos hle, if_pos hle]
  · rw [if_neg hle, if_neg hle]
    dsimp only
    unfold Calculation.run
    rw [hcharge (Performance.get_set_self _ _ _) (Performance.get_set_self _ _ _)
      (hma.sub hmb hle)]
    rfl

theorem deduction_shortPenalization (target : Component) (delta : Option Binary64) :
    deduction [shortPenalization target delta] target = .zero + Binary64.orZero delta := by
  have hdelta : (shortPenalization target delta).delta.get target = delta :=
    Performance.get_only_self target delta
  unfold deduction
  rw [List.map_singleton, hdelta]
  rfl

theorem ScoresBy.final_eq (h : r.ScoresBy primary target k) (hoverride : s.override = none)
    {x : Binary64} (hx : s.realized.get primary = some x) (hmeasure : x.IsMeasure)
    (hannounced : ∀ a ∈ s.declared.announced.get primary, a.IsMeasure) :
    ∃ record, r.submit s = .ok record ∧ record.final.get target =
      some (k.final (s.declared.announced.get primary) x (s.deltas target) s.isRed) := by
  obtain ⟨realized, hfilled, hprimary, hscore⟩ := h.withPoints hx
  have hshort := h.short?_eq hannounced (hmeasure.forall_mem hprimary)
  rw [hprimary] at hshort
  refine ⟨_, submit_eq_ok.mpr ⟨realized, _, hfilled, hshort, rfl⟩, ?_⟩
  rw [get_final_recorded hoverride h.target_eq h.measures_target hscore]
  · unfold Scale.final Scale.owed
    split
    · rfl
    · split
      · rfl
      · rw [Option.toList_some, deduction_shortPenalization]
  · intro p hp
    split at hp
    · cases hp
    · rw [← Option.some.inj hp]
      rfl

end Rule

/-- Of two attempts that are penalized alike, the one that is no worse and was announced no
higher ends no lower. -/
theorem Rule.ScoresBy.submitted_final_le {r : Rule} {primary target : Component} {k : Scale}
    (hscores : r.ScoresBy primary target k) (hk : k.IsMonotone) (session : Session)
    (s s' : Submission) (hcard : s'.card = s.card)
    (hpenalizations : s'.penalizations = s.penalizations)
    (hdeltas : ∀ p ∈ s.penalizations, p.delta.IsFinite)
    (hoverride : s.override = none) (hoverride' : s'.override = none) {x x' : Binary64}
    (hx : s.realized.get primary = some x) (hx' : s'.realized.get primary = some x')
    (hmeasure : x.IsMeasure) (hmeasure' : x'.IsMeasure)
    (hannounced : ∀ a ∈ s.declared.announced.get primary, a.IsMeasure)
    (hannounced' : ∀ a ∈ s'.declared.announced.get primary, a.IsMeasure)
    (hle : (Binary64.orZero (s'.declared.announced.get primary)).le
      (Binary64.orZero (s.declared.announced.get primary)) = true)
    (hxx : x.le x' = true) :
    ∃ record record' v v', session.submitted r s = .ok record ∧
      session.submitted r s' = .ok record' ∧ record.final.get target = some v ∧
      record'.final.get target = some v' ∧ v.le v' = true := by
  obtain ⟨record, hrecord, hv⟩ := hscores.final_eq hoverride hx hmeasure hannounced
  obtain ⟨record', hrecord', hv'⟩ := hscores.final_eq hoverride' hx' hmeasure' hannounced'
  have hgenuine : s'.genuine = s.genuine := by
    unfold Submission.genuine
    rw [hpenalizations]
  have hothers : s'.deltas target = s.deltas target := by
    unfold Submission.deltas
    rw [hgenuine]
  have hred : s'.isRed = s.isRed := by
    unfold Submission.isRed
    rw [hgenuine, hcard]
  rw [hothers, hred] at hv'
  refine ⟨record, record', _, _, Session.submitted_eq_ok.mpr hrecord,
    Session.submitted_eq_ok.mpr hrecord', hv, hv', ?_⟩
  exact Scale.final_le hk s.isRed hannounced hannounced' hmeasure hmeasure'
    (Submission.isFinite_deltas hdeltas target) hle hxx

namespace Session

/-- Under the rules of the federations a better dive never scores less, and a bolder
announcement never scores more. -/
theorem submitted_fair {r : Rule} (hr : r ∈ Federations.all) {primary target : Component}
    (hprimary : r.primary = some primary) (htarget : r.target = some target)
    (session : Session) {s : Submission} (hoverride : s.override = none)
    (hdeltas : ∀ p ∈ s.penalizations, p.delta.IsFinite) :
    (∀ worse better : Binary64, worse.IsMeasure → better.IsMeasure →
      worse.le better = true → (∀ a ∈ s.declared.announced.get primary, a.IsMeasure) →
      ∃ record record' v v',
        session.submitted r { s with realized := s.realized.set primary (some worse) } =
          .ok record ∧
        session.submitted r { s with realized := s.realized.set primary (some better) } =
          .ok record' ∧
        record.final.get target = some v ∧ record'.final.get target = some v' ∧
        v.le v' = true) ∧
    (∀ (modest bold : Declared) (a a' x : Binary64),
      modest.announced.get primary = some a → bold.announced.get primary = some a' →
      s.realized.get primary = some x → a.IsMeasure → a'.IsMeasure → a.le a' = true →
      x.IsMeasure →
      ∃ record record' v v',
        session.submitted r { s with declared := modest } = .ok record ∧
        session.submitted r { s with declared := bold } = .ok record' ∧
        record.final.get target = some v ∧ record'.final.get target = some v' ∧
        v'.le v = true) := by
  obtain ⟨primary', target', k, hscores, hk⟩ := Federations.exists_scoresBy hr
  obtain rfl := Option.some.inj (hprimary.symm.trans hscores.primary_eq)
  obtain rfl := Option.some.inj (htarget.symm.trans hscores.target_eq)
  constructor
  · intro worse better hworse hbetter hle hannounced
    have hsame := Binary64.le_refl (Binary64.isMeasure_orZero hannounced).ne_nan
    exact hscores.submitted_final_le hk session
      { s with realized := s.realized.set primary (some worse) }
      { s with realized := s.realized.set primary (some better) } rfl rfl hdeltas hoverride
      hoverride (Performance.get_set_self _ _ _) (Performance.get_set_self _ _ _) hworse
      hbetter hannounced hannounced hsame hle
  · intro modest bold a a' x hmodest hbold hx ha ha' hle hmeasure
    have hlower : (Binary64.orZero (modest.announced.get primary)).le
        (Binary64.orZero (bold.announced.get primary)) = true := by
      rw [hmodest, hbold, Binary64.le_orZero]
      exact hle
    obtain ⟨record', record, v', v, hrecord', hrecord, hv', hv, hvv⟩ :=
      hscores.submitted_final_le hk session { s with declared := bold }
        { s with declared := modest } rfl rfl hdeltas hoverride hoverride hx hx hmeasure
        hmeasure (ha'.forall_mem hbold) (ha.forall_mem hmodest) hlower
        (Binary64.le_refl hmeasure.ne_nan)
    exact ⟨record, record', v, v', hrecord, hrecord', hv, hv', hvv⟩

theorem submitted_fair_sta :
    (∃ record record' v v',
      submitted {} Federations.Aida.sta { madeUpShort with
        realized := madeUpShort.realized.set .duration (some (.ofDecimal false 90 0)) } =
          .ok record ∧
      submitted {} Federations.Aida.sta { madeUpShort with
        realized := madeUpShort.realized.set .duration (some (.ofDecimal false 110 0)) } =
          .ok record' ∧
      record.final.get .points = some v ∧ record'.final.get .points = some v' ∧
      v.le v' = true) ∧
    (∃ record record' v v',
      submitted {} Federations.Aida.sta { madeUpShort with
        declared := .performance { duration := some (.ofDecimal false 80 0) } } =
          .ok record ∧
      submitted {} Federations.Aida.sta { madeUpShort with
        declared := .performance { duration := some (.ofDecimal false 100 0) } } =
          .ok record' ∧
      record.final.get .points = some v ∧ record'.final.get .points = some v' ∧
      v'.le v = true) := by
  have hdeltas : ∀ p ∈ madeUpShort.penalizations, p.delta.IsFinite := by decide +kernel
  obtain ⟨hrealized, hannounced⟩ :=
    submitted_fair List.mem_cons_self rfl rfl {} (s := madeUpShort) rfl hdeltas
  constructor
  · apply hrealized _ _ (by decide +kernel) (by decide +kernel) (by decide +kernel)
    intro a ha
    rw [← Option.some.inj ha]
    decide +kernel
  · apply hannounced _ _ _ _ _ rfl rfl rfl <;> decide +kernel

end Session

end ApneaScoring
