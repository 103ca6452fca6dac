import ApneaScoring.Proofs.Calculation.Strictness
import ApneaScoring.Proofs.Reconciliation
import ApneaScoring.Proofs.Submission
import ApneaScoring.Rule.Federations

namespace ApneaScoring

theorem Variables.get?_set_points (vars : Variables) (v : Option Binary64) (name : String) :
    ({ vars with realized := vars.realized.set .points v } : Variables).get? name =
      vars.get? name := by
  unfold get?
  split <;> rfl

namespace Calculation

theorem run_set_points (c : Calculation) (vars : Variables) (v : Option Binary64) :
    c.run { vars with realized := vars.realized.set .points v } = c.run vars := by
  unfold run
  rw [evaluate_congr fun name _ _ => vars.get?_set_points v name]

end Calculation

namespace Rule

variable {r : Rule} {primary : Component} {given realized : Performance}

theorem points_set_points (r : Rule) (given : Performance) (v : Option Binary64) :
    r.points (given.set .points v) = r.points given := by
  unfold points
  split
  · cases r.pointsCalculation with
    | none => rfl
    | some calculation =>
        have hrun := calculation.run_set_points { realized := given } v
        dsimp only at hrun ⊢
        rw [hrun]
  · rfl

theorem shortfall?_set_points (hother : r.primary ≠ some .points) (announced : Performance)
    (given : Performance) (v : Option Binary64) :
    r.shortfall? announced (given.set .points v) = r.shortfall? announced given := by
  cases hprimary : r.primary with
  | none =>
      unfold shortfall?
      rw [hprimary]
      rfl
  | some primary =>
      cases hcalculation : r.shortCalculation with
      | none =>
          unfold shortfall?
          rw [hprimary, hcalculation]
          rfl
      | some calculation =>
          have hne : primary ≠ .points := fun heq => hother (heq ▸ hprimary)
          rw [shortfall?_eq hprimary hcalculation, shortfall?_eq hprimary hcalculation,
            Performance.get_set_of_ne _ _ hne]

theorem short?_set_points (hother : r.primary ≠ some .points) (announced : Performance)
    (given : Performance) (v : Option Binary64) :
    r.short? announced (given.set .points v) = r.short? announced given := by
  unfold short?
  rw [shortfall?_set_points hother]
  split
  · next primary target calculation shortfall hprimary _ _ _ =>
      have hne : Component.points ≠ primary := fun heq => hother (heq ▸ hprimary)
      have hrun := calculation.run_set_points
        { announced := announced.set primary (some shortfall.announced)
          realized := given.set primary (some shortfall.realized) } v
      rw [given.set_comm hne, ← hrun]
  · rfl

theorem withPoints_of_isSome (hpoints : r.hasPoints = true) (hprimary : r.primary = some primary)
    (hmeasured : (given.get primary).isSome = true) :
    r.withPoints given = (r.points given).map fun points => given.set .points (some points) := by
  unfold withPoints
  rw [if_pos hpoints, hprimary]
  dsimp only
  rw [if_pos hmeasured]
  cases r.points given with
  | error e => rfl
  | ok points => rfl

theorem withPoints_of_get_eq_none (hprimary : r.primary = some primary)
    (hmeasured : given.get primary = none) : r.withPoints given = .ok given := by
  unfold withPoints
  rw [hprimary]
  dsimp only
  rw [hmeasured]
  split
  · exact if_neg Bool.false_ne_true
  · rfl

theorem withPoints_set_points (hpoints : r.hasPoints = true) (hprimary : r.primary = some primary)
    (hne : primary ≠ .points) (hmeasured : (given.get primary).isSome = true)
    (v : Option Binary64) : r.withPoints (given.set .points v) = r.withPoints given := by
  have hkept : ((given.set .points v).get primary).isSome = true := by
    rw [Performance.get_set_of_ne _ _ hne]
    exact hmeasured
  rw [withPoints_of_isSome hpoints hprimary hkept, withPoints_of_isSome hpoints hprimary hmeasured,
    r.points_set_points]
  simp only [Performance.set_set]

end Rule

/-- The same attempt, handed in with other points. -/
def Submission.claiming (s : Submission) (points : Option Binary64) : Submission :=
  { s with realized := s.realized.set .points points }

namespace Rule

variable {r : Rule} {primary : Component} {s : Submission} {record : Recorded}

theorem submit_claiming (hpoints : r.hasPoints = true) (hprimary : r.primary = some primary)
    (hne : primary ≠ .points) (hmeasured : (s.realized.get primary).isSome = true)
    (points : Option Binary64) : r.submit (s.claiming points) = r.submit s := by
  unfold submit Submission.claiming
  dsimp only
  rw [withPoints_set_points hpoints hprimary hne hmeasured]
  rfl

theorem realized_of_isSome (hpoints : r.hasPoints = true) (hprimary : r.primary = some primary)
    (hmeasured : (s.realized.get primary).isSome = true) (h : r.submit s = .ok record) :
    ∃ points, r.points s.realized = .ok points ∧
      record.realized = s.realized.set .points (some points) := by
  obtain ⟨realized, short, hfilled, -, rfl⟩ := submit_eq_ok.mp h
  rw [withPoints_of_isSome hpoints hprimary hmeasured] at hfilled
  cases hresult : r.points s.realized with
  | error e =>
      rw [hresult] at hfilled
      cases hfilled
  | ok points =>
      rw [hresult] at hfilled
      exact ⟨points, rfl, (Except.ok.inj hfilled).symm⟩

theorem realized_of_get_eq_none (hprimary : r.primary = some primary)
    (hmeasured : s.realized.get primary = none) (h : r.submit s = .ok record) :
    record.realized = s.realized := by
  obtain ⟨realized, short, hfilled, -, rfl⟩ := submit_eq_ok.mp h
  rw [withPoints_of_get_eq_none hprimary hmeasured] at hfilled
  exact (Except.ok.inj hfilled).symm

/-- Short of the measured component an attempt is recorded whatever is claimed for it. -/
theorem submit_claiming_of_get_eq_none (hprimary : r.primary = some primary)
    (hne : primary ≠ .points) (hmeasured : s.realized.get primary = none)
    (h : r.submit s = .ok record) (points : Option Binary64) :
    ∃ record', r.submit (s.claiming points) = .ok record' := by
  obtain ⟨realized, short, hfilled, hshort, -⟩ := submit_eq_ok.mp h
  rw [withPoints_of_get_eq_none hprimary hmeasured] at hfilled
  obtain rfl := Except.ok.inj hfilled
  have hkept : (s.claiming points).realized.get primary = none := by
    rw [← hmeasured]
    exact Performance.get_set_of_ne _ _ hne
  have hother : r.primary ≠ some .points := by
    rw [hprimary]
    exact fun heq => hne (Option.some.inj heq)
  refine ⟨_, submit_eq_ok.mpr
    ⟨_, short, withPoints_of_get_eq_none hprimary hkept, ?_, rfl⟩⟩
  exact (short?_set_points hother _ _ points).trans hshort

theorem isSome_final_points (hpoints : r.hasPoints = true) (hoverride : s.override = none)
    (h : r.submit s = .ok record) :
    record.final.points.isSome = true ↔ record.realized.points.isSome = true := by
  obtain ⟨realized, short, -, -, rfl⟩ := submit_eq_ok.mp h
  unfold recorded
  dsimp only
  rw [hoverride, Option.getD_none]
  have hmeasures : r.measures .points = true := hpoints
  unfold finalPerformance
  rw [← Performance.get, Performance.get_ofComponents, isSome_finalComponent, hmeasures]
  exact and_iff_left rfl

end Rule

namespace Session

variable {r : Rule} {primary : Component}

/-- Under a rule of AIDA the points of a record are those awarded for the measured component,
whatever was claimed, just where that component was measured; where it was not, the points
that were claimed reach the record and the final performance. -/
theorem submitted_points
    (hr : r ∈ [Federations.Aida.sta, Federations.Aida.dyn, Federations.Aida.cwt])
    (hprimary : r.primary = some primary) (session : Session) (s : Submission) :
    ((s.realized.get primary).isSome = true →
      (∀ points, session.submitted r (s.claiming points) = session.submitted r s) ∧
      ∀ record, session.submitted r s = .ok record →
        ∃ points, r.points s.realized = .ok points ∧ record.realized.points = some points) ∧
    (s.realized.get primary = none → ∀ record, session.submitted r s = .ok record →
      record.realized.points = s.realized.points ∧
      (s.override = none →
        (record.final.points.isSome = true ↔ s.realized.points.isSome = true)) ∧
      ∀ points, points ≠ s.realized.points →
        ∃ record', session.submitted r (s.claiming points) = .ok record' ∧
          record' ≠ record) := by
  have haida : r.hasPoints = true ∧ r.primary ≠ some .points := by
    simp only [List.mem_cons, List.not_mem_nil, or_false] at hr
    rcases hr with rfl | rfl | rfl
    · exact ⟨rfl, by decide⟩
    · exact ⟨rfl, by decide⟩
    · exact ⟨rfl, by decide⟩
  obtain ⟨hpoints, hother⟩ := haida
  have hne : primary ≠ .points := fun heq => hother (heq ▸ hprimary)
  constructor
  · intro hmeasured
    refine ⟨fun points => ?_, fun record hrecord => ?_⟩
    · rw [submitted_eq, submitted_eq, Rule.submit_claiming hpoints hprimary hne hmeasured]
    · rw [submitted_eq_ok] at hrecord
      obtain ⟨points, hawarded, hrealized⟩ :=
        Rule.realized_of_isSome hpoints hprimary hmeasured hrecord
      refine ⟨points, hawarded, ?_⟩
      rw [hrealized]
      exact Performance.get_set_self _ .points _
  · intro hmeasured record hrecord
    rw [submitted_eq_ok] at hrecord
    have hrealized := Rule.realized_of_get_eq_none hprimary hmeasured hrecord
    refine ⟨congrArg Performance.points hrealized, fun hoverride => ?_, fun points hclaim => ?_⟩
    · rw [Rule.isSome_final_points hpoints hoverride hrecord, hrealized]
    · obtain ⟨record', hrecord'⟩ :=
        Rule.submit_claiming_of_get_eq_none hprimary hne hmeasured hrecord points
      refine ⟨record', submitted_eq_ok.mpr hrecord', ?_⟩
      rintro rfl
      have hkept : (s.claiming points).realized.get primary = none :=
        (Performance.get_set_of_ne _ _ hne).trans hmeasured
      have hclaimed := Rule.realized_of_get_eq_none hprimary hkept hrecord'
      rw [hrealized] at hclaimed
      have hkeptPoints := congrArg (Performance.get · .points) hclaimed
      exact hclaim ((Performance.get_set_self _ .points points).symm.trans hkeptPoints.symm)

def fiftyClaimed : Submission where
  realized := { points := some (.ofDecimal false 50 0) }
  card := .white

theorem submitted_points_dyn :
    fiftyClaimed.realized.get .distance = none ∧
    ∃ record, submitted {} Federations.Aida.dyn fiftyClaimed = .ok record ∧
      record.realized.points = fiftyClaimed.realized.points := by
  have hdyn : Federations.Aida.dyn ∈
      [Federations.Aida.sta, Federations.Aida.dyn, Federations.Aida.cwt] :=
    List.mem_cons_of_mem _ List.mem_cons_self
  exact ⟨rfl, _, rfl, ((submitted_points hdyn rfl {} fiftyClaimed).2 rfl _ rfl).1⟩

/-- The claimed points are recorded and ranked, and without the claim there are none. -/
theorem fiftyClaimed_recorded :
    fiftyClaimed.realized.get .distance = none ∧
    ∃ record unclaimed : Recorded,
      submitted {} Federations.Aida.dyn fiftyClaimed = .ok record ∧
      submitted {} Federations.Aida.dyn (fiftyClaimed.claiming none) = .ok unclaimed ∧
      record.realized.points = some (.ofDecimal false 50 0) ∧
      record.final.points = some (.ofDecimal false 50 0) ∧
      unclaimed.realized.points = none ∧ unclaimed.final.points = none ∧
      record ≠ unclaimed := by
  refine ⟨rfl, _, _, rfl, rfl, rfl, ?_, rfl, rfl, ?_⟩
  · decide +kernel
  · decide +kernel

end Session

end ApneaScoring
