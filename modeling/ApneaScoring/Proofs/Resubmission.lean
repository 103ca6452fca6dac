import ApneaScoring.Proofs.Points

namespace ApneaScoring

theorem Card.foldl_combine_eq_self {cards : List Card} {first : Card}
    (h : ∀ card ∈ cards, card.severity ≤ first.severity) : cards.foldl combine first = first := by
  induction cards with
  | nil => rfl
  | cons card cards ih =>
      have hkept : first.combine card = first := if_pos (h card List.mem_cons_self)
      rw [List.foldl_cons, hkept]
      exact ih fun other hother => h other (List.mem_cons_of_mem card hother)

theorem penalizationsCard_penalizationsCard (ps : List Penalization) (judge : Card) :
    penalizationsCard ps (penalizationsCard ps judge) = penalizationsCard ps judge := by
  rw [penalizationsCard_eq]
  apply Card.foldl_combine_eq_self
  intro card hcard
  exact severity_le_penalizationsCard ps judge card (List.mem_cons_of_mem judge hcard)

namespace Submission

/-- The record of an attempt, handed in as the attempt. -/
def resubmission (s : Submission) (record : Recorded) : Submission :=
  { s with
    realized := record.realized
    penalizations := record.penalizations
    card := record.card
    timestamp := record.timestamp }

end Submission

namespace Rule

variable {r : Rule} {s : Submission} {record : Recorded} {announced given realized : Performance}

theorem withPoints_withPoints (h : r.withPoints given = .ok realized) :
    r.withPoints realized = .ok realized := by
  rcases withPoints_cases h with
    rfl | ⟨hpoints, primary, points, hprimary, hmeasured, hawarded, rfl⟩
  · exact h
  · have hkept : ((given.set .points (some points)).get primary).isSome = true := by
      by_cases hne : primary = .points
      · rw [hne, Performance.get_set_self]
        rfl
      · rw [Performance.get_set_of_ne _ _ hne]
        exact hmeasured
    rw [withPoints_of_isSome hpoints hprimary hkept, points_set_points, hawarded]
    exact congrArg Except.ok (Performance.set_set _ _ _ _)

theorem claimsShort_of_short? {short : Option Penalization}
    (h : r.short? announced realized = .ok short) : ∀ p ∈ short, p.claimsShort = true := by
  intro p hp
  obtain ⟨target, delta, rfl⟩ := (short?_eq_ok h).2 p hp
  rfl

theorem genuine_resubmission (h : r.submit s = .ok record) :
    (s.resubmission record).genuine = s.genuine := by
  obtain ⟨realized, short, -, hshort, rfl⟩ := submit_eq_ok.mp h
  change (short.toList ++ s.genuine).filter (!·.claimsShort) = s.genuine
  have hdropped : short.toList.filter (!·.claimsShort) = [] := by
    rw [List.filter_eq_nil_iff]
    intro p hp
    rw [claimsShort_of_short? hshort p (Option.mem_toList.mp hp)]
    exact Bool.false_ne_true
  rw [List.filter_append, hdropped, List.nil_append]
  exact s.genuine_withoutShort

theorem submit_resubmission (h : r.submit s = .ok record) :
    r.submit (s.resubmission record) = .ok record := by
  have hgenuine := genuine_resubmission h
  obtain ⟨realized, short, hfilled, hshort, hrecord⟩ := submit_eq_ok.mp h
  have hcard : penalizationsCard (short.toList ++ s.genuine) record.card =
      penalizationsCard (short.toList ++ s.genuine) s.card := by
    rw [← hrecord]
    exact penalizationsCard_penalizationsCard _ _
  have htimestamp : record.timestamp = s.timestamp := by
    rw [← hrecord]
    rfl
  have hkept : r.withPoints record.realized = .ok realized := by
    rw [← hrecord]
    exact withPoints_withPoints hfilled
  refine submit_eq_ok.mpr ⟨realized, short, hkept, hshort, ?_⟩
  unfold recorded at hrecord ⊢
  rw [hgenuine]
  unfold Submission.resubmission
  dsimp only at hrecord ⊢
  rw [hcard, htimestamp]
  exact hrecord

end Rule

namespace Session

/-- A record that is handed in again, at whatever time, is recorded as it is. -/
theorem submitted_resubmission {session : Session} {r : Rule} {s : Submission}
    {record : Recorded} (h : session.submitted r s = .ok record) (later : Session) :
    later.submitted r (s.resubmission record) = .ok record := by
  rw [submitted_eq_ok] at h ⊢
  exact Rule.submit_resubmission h

def pointsOfMadeUpShort : Recorded :=
  { recordOfMadeUpShort with
    realized := { duration := some (.ofDecimal false 90 0), points := some (.ofDecimal false 18 0) }
    final := { duration := some (.ofDecimal false 89 0), points := some (.ofDecimal false 16 0) }
    penalizations :=
      Rule.shortPenalization .points (some (.ofDecimal false 2 0)) ::
        recordOfMadeUpShort.penalizations.tail }

theorem submitted_resubmission_sta :
    submitted {} Federations.Aida.sta madeUpShort = .ok pointsOfMadeUpShort ∧
    submitted {} Federations.Aida.sta (madeUpShort.resubmission pointsOfMadeUpShort) =
      .ok pointsOfMadeUpShort := by
  have h : submitted {} Federations.Aida.sta madeUpShort = .ok pointsOfMadeUpShort := by
    decide +kernel
  exact ⟨h, submitted_resubmission h {}⟩

end Session

end ApneaScoring
