import ApneaScoring.Proofs.Catalog
import ApneaScoring.Proofs.Deterrence

namespace ApneaScoring

namespace Rule

variable {r : Rule} {primary target : Component} {k : Scale} {s : Submission}

theorem ScoresBy.exists_submit (h : r.ScoresBy primary target k) (hk : k.IsMonotone)
    (hannounced : s.declared.announced.IsMeasured) (hrealized : s.realized.IsMeasured) :
    ∃ record, r.submit s = .ok record := by
  obtain ⟨realized, hfilled, hprimary, -⟩ := h.exists_withPoints hk hrealized
  obtain ⟨short, hshort, -, -⟩ :=
    h.exists_short? hk (hannounced primary) (hprimary ▸ hrealized primary)
  exact ⟨_, submit_eq_ok.mpr ⟨realized, short, hfilled, hshort, rfl⟩⟩

theorem exists_submit_unknown (s : Submission) : ∃ record, unknown.submit s = .ok record :=
  ⟨_, submit_eq_ok.mpr ⟨s.realized, none, rfl, rfl, rfl⟩⟩

end Rule

namespace Session

/-- Under the rules of the federations, and that of an unknown name, every attempt of measures
is recorded, and every entry of the catalog makes a penalization of an input that it accepts. -/
theorem scoring_total (session : Session) {r : Rule} (hr : r ∈ Rule.unknown :: Federations.all) :
    (∀ s : Submission, s.declared.announced.IsMeasured → s.realized.IsMeasured →
      ∃ record, session.submitted r s = .ok record) ∧
    ∀ e ∈ r.penalizations, ∀ given, e.Accepts given → ∀ realized, ∃ p,
      (session.run (penalize (.definition r) (.text e.id) given realized)).1 = .ok p := by
  rcases List.mem_cons.mp hr with rfl | hlisted
  · refine ⟨fun s _ _ => ?_, List.forall_mem_nil _⟩
    obtain ⟨record, hrecord⟩ := Rule.exists_submit_unknown s
    exact ⟨record, submitted_eq_ok.mpr hrecord⟩
  · obtain ⟨primary, target, k, hscores, hk⟩ := Federations.exists_scoresBy hlisted
    constructor
    · intro s hannounced hrealized
      obtain ⟨record, hrecord⟩ := hscores.exists_submit hk hannounced hrealized
      exact ⟨record, submitted_eq_ok.mpr hrecord⟩
    · intro e he given haccepts realized
      obtain ⟨p, hp, -⟩ :=
        Federations.exists_penalize hlisted hscores.target_eq he haccepts realized
      refine ⟨p, ?_⟩
      rw [run_penalize, hp]
      rfl

def boundless : Submission where
  declared := .performance { duration := some (.ofDecimal false 120 0) }
  realized := { duration := some (.ofDecimal false 1055 (-1)) }
  penalizations :=
    [{ id := "Endless", reason := "", shortReason := ""
       delta := { points := some (.infinite false) } },
     { id := "NoNumber", reason := "", shortReason := "", delta := { points := some .nan } }]
  card := .white

theorem scoring_total_sta :
    (∃ record, submitted {} Federations.Aida.sta boundless = .ok record) ∧
    ∃ p, (run {} (penalize (.definition Federations.Aida.sta) (.text "EarlyStart") (.integer 7)
      boundless.realized)).1 = .ok p := by
  have hsta : Federations.Aida.sta ∈ Rule.unknown :: Federations.all := by
    simp [Federations.all]
  obtain ⟨hrecorded, hpenalized⟩ := scoring_total {} hsta
  constructor
  · have hmeasured : boundless.declared.announced.IsMeasured ∧ boundless.realized.IsMeasured := by
      decide +kernel
    exact hrecorded boundless hmeasured.1 hmeasured.2
  · have hstart : Federations.Aida.earlyStart ∈ Federations.Aida.sta.penalizations := by
      simp [Federations.Aida.sta, Federations.Aida.fields, Federations.Aida.starts]
    have hseven := Binary64.isWhole_ofInt (n := 7) (by decide)
    have hgiven : (Datum.integer 7).Denotes (.ofInt 7) :=
      .integer ((Binary64.ofInt?_eq 7).trans (if_pos hseven.1))
    have haccepts : Federations.Aida.earlyStart.Accepts (.integer 7) := fun _ =>
      ⟨_, hgiven, hseven.1, (Binary64.isWhole_zero.lt_iff hseven).mpr (by decide)⟩
    exact hpenalized _ hstart _ haccepts _

end Session

end ApneaScoring
