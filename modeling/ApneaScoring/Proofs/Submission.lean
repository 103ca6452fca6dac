import ApneaScoring.Proofs.Finiteness
import ApneaScoring.Proofs.Reconciliation
import ApneaScoring.Proofs.Session

namespace ApneaScoring

namespace Rule

variable {r : Rule} {announced realized : Performance}

theorem shortfall?_eq {primary : Component} {calculation : Calculation}
    (hprimary : r.primary = some primary)
    (hcalculation : r.shortCalculation = some calculation) :
    r.shortfall? announced realized =
      let a := Binary64.orZero (announced.get primary)
      let b := Binary64.orZero (realized.get primary)
      if a.le b then none else some ⟨a, b⟩ := by
  unfold shortfall?
  rw [hprimary, hcalculation]
  rfl

theorem exists_target {primary : Component} (hprimary : r.primary = some primary) :
    ∃ target, r.target = some target := by
  unfold target
  split
  · exact ⟨_, rfl⟩
  · exact ⟨_, hprimary⟩

theorem short?_cases (r : Rule) (announced realized : Performance) :
    (r.shortfall? announced realized = none ∧ r.short? announced realized = .ok none) ∨
    ∃ primary target calculation shortfall, r.primary = some primary ∧
      r.target = some target ∧ r.shortCalculation = some calculation ∧
      r.shortfall? announced realized = some shortfall ∧
      r.short? announced realized = (calculation.run
          { announced := announced.set primary (some shortfall.announced)
            realized := realized.set primary (some shortfall.realized) }).map
        fun delta => some (shortPenalization target delta) := by
  cases hshortfall : r.shortfall? announced realized with
  | none =>
      refine .inl ⟨rfl, ?_⟩
      unfold short?
      rw [hshortfall]
      split
      · next h => cases h
      · rfl
  | some shortfall =>
      cases hprimary : r.primary with
      | none =>
          unfold shortfall? at hshortfall
          rw [hprimary] at hshortfall
          cases hshortfall
      | some primary =>
          cases hcalculation : r.shortCalculation with
          | none =>
              unfold shortfall? at hshortfall
              rw [hprimary, hcalculation] at hshortfall
              cases hshortfall
          | some calculation =>
              obtain ⟨target, htarget⟩ := exists_target hprimary
              refine .inr ⟨primary, target, calculation, shortfall, rfl, htarget, rfl,
                rfl, ?_⟩
              unfold short?
              rw [hprimary, htarget, hcalculation, hshortfall]
              dsimp only
              rfl

theorem short?_eq_ok {short : Option Penalization}
    (h : r.short? announced realized = .ok short) :
    short.isSome = (r.shortfall? announced realized).isSome ∧
      ∀ p ∈ short, ∃ target delta, p = shortPenalization target delta := by
  rcases r.short?_cases announced realized with ⟨hnone, heq⟩ |
    ⟨primary, target, calculation, shortfall, -, -, -, hsome, heq⟩
  · rw [h] at heq
    cases heq
    rw [hnone]
    refine ⟨rfl, ?_⟩
    intro p hp
    cases hp
  · rw [h] at heq
    cases hrun : calculation.run
        { announced := announced.set primary (some shortfall.announced)
          realized := realized.set primary (some shortfall.realized) } with
    | error e =>
        rw [hrun] at heq
        cases heq
    | ok delta =>
        rw [hrun] at heq
        cases heq
        rw [hsome]
        refine ⟨rfl, ?_⟩
        intro p hp
        exact ⟨target, delta, (Option.some.inj hp).symm⟩

theorem isSome_shortfall?
    (hannounced : ∀ primary ∈ r.primary, announced.get primary ≠ some .nan)
    (hrealized : ∀ primary ∈ r.primary, realized.get primary ≠ some .nan) :
    (r.shortfall? announced realized).isSome = true ↔
      ∃ primary ∈ r.primary, r.shortCalculation.isSome = true ∧
        ((realized.get primary).getD .zero).lt ((announced.get primary).getD .zero) =
          true := by
  cases hprimary : r.primary with
  | none => simp [shortfall?, hprimary]
  | some primary =>
      cases hcalculation : r.shortCalculation with
      | none => simp [shortfall?, hprimary, hcalculation]
      | some calculation =>
          have ha := Binary64.orZero_ne_nan (hannounced primary hprimary)
          have hb := Binary64.orZero_ne_nan (hrealized primary hprimary)
          have hlt := Binary64.not_le_iff_lt ha hb
          rw [Binary64.lt_orZero] at hlt
          rw [shortfall?_eq hprimary hcalculation]
          simp [← hlt]

theorem withPoints_cases {given : Performance} (h : r.withPoints given = .ok realized) :
    realized = given ∨ r.hasPoints = true ∧ ∃ primary points, r.primary = some primary ∧
      (given.get primary).isSome = true ∧ r.points given = .ok points ∧
      realized = given.set .points (some points) := by
  unfold withPoints at h
  split at h
  · next hpoints =>
      split at h
      · cases h
      · next primary hprimary =>
          split at h
          · next hmeasured =>
              cases hresult : r.points given with
              | error e =>
                  rw [hresult] at h
                  cases h
              | ok points =>
                  rw [hresult] at h
                  exact .inr ⟨hpoints, primary, points, hprimary, hmeasured, rfl,
                    (Except.ok.inj h).symm⟩
          · exact .inl (Except.ok.inj h).symm
  · exact .inl (Except.ok.inj h).symm

theorem get_withPoints {given : Performance} (h : r.withPoints given = .ok realized)
    {c : Component} (hc : r.hasPoints = true → c ≠ .points) :
    realized.get c = given.get c := by
  rcases withPoints_cases h with rfl | ⟨hpoints, primary, points, -, -, -, rfl⟩
  · rfl
  · exact Performance.get_set_of_ne _ _ (hc hpoints)

theorem submit_eq_ok {s : Submission} {record : Recorded} :
    r.submit s = .ok record ↔ ∃ realized short, r.withPoints s.realized = .ok realized ∧
      r.short? s.declared.announced realized = .ok short ∧
      r.recorded s realized short = record := by
  unfold submit
  cases hrealized : r.withPoints s.realized with
  | error e => simp [bind, Except.bind]
  | ok realized =>
      cases hshort : r.short? s.declared.announced realized with
      | error e => simp [bind, Except.bind, hshort]
      | ok short => simp [bind, Except.bind, pure, Except.pure, hshort]

end Rule

namespace Submission

def withoutShort (s : Submission) : Submission :=
  { s with penalizations := s.genuine }

theorem genuine_withoutShort (s : Submission) : s.withoutShort.genuine = s.genuine := by
  unfold withoutShort genuine
  rw [List.filter_filter]
  simp

end Submission

namespace Rule

theorem submit_withoutShort (r : Rule) (s : Submission) :
    r.submit s.withoutShort = r.submit s := by
  unfold submit recorded
  rw [s.genuine_withoutShort]
  rfl

theorem filter_claimsShort {s : Submission} {short : Option Penalization}
    (hshort : ∀ p ∈ short, p.claimsShort = true) :
    (short.toList ++ s.genuine).filter (·.claimsShort) = short.toList := by
  have hgenuine : s.genuine.filter (·.claimsShort) = [] := by
    unfold Submission.genuine
    rw [List.filter_filter]
    simp
  rw [List.filter_append, hgenuine, List.append_nil, List.filter_eq_self]
  intro p hp
  exact hshort p (Option.mem_toList.mp hp)

end Rule

namespace Session

variable {session : Session} {r : Rule} {s : Submission} {record : Recorded}

/-- A record holds the short penalization of the attempt, when there is one, and after it
the caller's penalizations that are not short ones; its card is the most severe shown. -/
theorem submitted_penalizations (h : session.submitted r s = .ok record)
    (hannounced : ∀ primary ∈ r.primary, s.declared.announced.get primary ≠ some .nan)
    (hrealized : ∀ primary ∈ r.primary, s.realized.get primary ≠ some .nan)
    (hpoints : r.hasPoints = true → r.primary = some .points →
      record.realized.points ≠ some .nan) :
    (∃ short : Option Penalization,
      record.penalizations = short.toList ++ s.penalizations.filter (!·.claimsShort) ∧
      record.penalizations.filter (·.claimsShort) = short.toList ∧
      (∀ p ∈ short, p.isShort = true ∧ p.id = "Short" ∧ p.card = .yellow) ∧
      (short.isSome = true ↔ ∃ primary ∈ r.primary, r.shortCalculation.isSome = true ∧
        ((record.realized.get primary).getD .zero).lt
          ((s.declared.announced.get primary).getD .zero) = true)) ∧
    session.submitted r { s with penalizations := s.penalizations.filter (!·.claimsShort) } =
      .ok record ∧
    record.card ∈ s.card :: record.penalizations.map (·.card) ∧
    (∀ card ∈ s.card :: record.penalizations.map (·.card),
      card.severity ≤ record.card.severity) ∧
    ((∃ p ∈ record.penalizations, p.isShort = true) →
      Card.yellow.severity ≤ record.card.severity) := by
  have hsame : session.submitted r s.withoutShort = .ok record := by
    rw [submitted_eq, Rule.submit_withoutShort, ← submitted_eq, h]
  rw [submitted_eq_ok, Rule.submit_eq_ok] at h
  obtain ⟨realized, short, hfilled, hshort, rfl⟩ := h
  have hrecorded : ∀ primary ∈ r.primary, realized.get primary ≠ some .nan := by
    intro primary hprimary
    by_cases hreplaced : r.hasPoints = true ∧ primary = .points
    · obtain ⟨hhas, rfl⟩ := hreplaced
      exact hpoints hhas hprimary
    · rw [Rule.get_withPoints hfilled fun hhas heq => hreplaced ⟨hhas, heq⟩]
      exact hrealized primary hprimary
  obtain ⟨hsome, hmade⟩ := Rule.short?_eq_ok hshort
  have hyellow : ∀ p ∈ short, p.isShort = true ∧ p.id = "Short" ∧ p.card = .yellow := by
    intro p hp
    obtain ⟨target, delta, rfl⟩ := hmade p hp
    exact ⟨rfl, rfl, rfl⟩
  have hcard := severity_le_penalizationsCard (short.toList ++ s.genuine) s.card
  refine ⟨⟨short, rfl, ?_, hyellow, ?_⟩, hsame, penalizationsCard_mem _ _, hcard, ?_⟩
  · apply Rule.filter_claimsShort
    intro p hp
    unfold Penalization.claimsShort
    rw [(hyellow p hp).1]
    rfl
  · rw [hsome]
    exact Rule.isSome_shortfall? hannounced hrecorded
  · rintro ⟨p, hp, hisShort⟩
    rcases List.mem_append.mp hp with hfirst | hgenuine
    · rw [← (hyellow p (Option.mem_toList.mp hfirst)).2.2]
      exact hcard _ (List.mem_cons_of_mem _ (List.mem_map_of_mem hp))
    · have hnot := (List.mem_filter.mp hgenuine).2
      unfold Penalization.claimsShort at hnot
      rw [hisShort] at hnot
      cases hnot

/-- A dive of 90 seconds after an announced 100, with a short penalization of 40 seconds and
a red card that the caller made up, and one second off that is genuine. -/
def madeUpShort : Submission where
  declared := .performance { duration := some (.ofDecimal false 100 0) }
  realized := { duration := some (.ofDecimal false 90 0) }
  penalizations :=
    [{ id := "Short", reason := "", shortReason := "", card := .red
       delta := { duration := some (.ofDecimal false 40 0) } },
     { id := "Late", reason := "", shortReason := ""
       delta := { duration := some (.ofDecimal false 1 0) } }]
  card := .white

def recordOfMadeUpShort : Recorded where
  discipline := ""
  realized := { duration := some (.ofDecimal false 90 0) }
  final := { duration := some (.ofDecimal false 79 0) }
  penalizations :=
    [Rule.shortPenalization .duration (some (.ofDecimal false 10 0)),
     { id := "Late", reason := "", shortReason := ""
       delta := { duration := some (.ofDecimal false 1 0) } }]
  card := .yellow

theorem submitted_madeUpShort :
    submitted {} Federations.Cmas.sta madeUpShort = .ok recordOfMadeUpShort ∧
    submitted {} Federations.Cmas.sta { madeUpShort with
      penalizations := madeUpShort.penalizations.filter (!·.claimsShort) } =
        .ok recordOfMadeUpShort := by
  have h : submitted {} Federations.Cmas.sta madeUpShort = .ok recordOfMadeUpShort := by
    decide +kernel
  refine ⟨h, (submitted_penalizations h ?_ ?_ ?_).2.1⟩
  · rintro _ ⟨⟩
    decide +kernel
  · rintro _ ⟨⟩
    decide +kernel
  · intro hpoints
    cases hpoints

def noNumberRule : Rule where
  name := "NoNumber"
  primary := some .points
  hasPoints := true
  pointsCalculation := some (.constant (.float .nan))
  shortCalculation := some (.constant (.float (.ofDecimal false 1 0)))

def onePoint : Submission where
  realized := { points := some (.ofDecimal false 1 0) }
  card := .white

/-- NaN awarded for the primary component falls short of everything, though neither the
announcement nor the realized performance holds a NaN and no more was announced. -/
theorem short_of_noNumber :
    onePoint.declared.announced.get .points ≠ some .nan ∧
    onePoint.realized.get .points ≠ some .nan ∧
    ((onePoint.realized.get .points).getD .zero).lt
      ((onePoint.declared.announced.get .points).getD .zero) = false ∧
    ∃ record, submitted {} noNumberRule onePoint = .ok record ∧
      ((record.realized.get .points).getD .zero).lt
        ((onePoint.declared.announced.get .points).getD .zero) = false ∧
      record.penalizations =
        [Rule.shortPenalization .points (some (.ofDecimal false 1 0))] := by
  refine ⟨by decide, by decide +kernel, by decide +kernel, _, rfl, ?_, rfl⟩
  decide +kernel

end Session

end ApneaScoring
