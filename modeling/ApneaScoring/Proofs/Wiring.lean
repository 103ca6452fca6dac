import ApneaScoring.Proofs.Catalog
import ApneaScoring.Proofs.Points

namespace ApneaScoring

namespace Rule

/-- Whether the rule, if it awards points, measures a component that they are awarded for. -/
def IsWired (r : Rule) : Prop :=
  r.hasPoints = true → r.primary.isSome = true

/-- Whether the calculations that an attempt is scored by have outcomes for it. -/
structure Evaluates (r : Rule) (s : Submission) : Prop where
  points : ∀ calculation ∈ r.pointsCalculation, ∃ result,
    calculation.evaluate { realized := s.realized } = .ok result
  short : ∀ realized, r.withPoints s.realized = .ok realized →
    ∀ primary ∈ r.primary, ∀ calculation ∈ r.shortCalculation,
      ∀ shortfall ∈ r.shortfall? s.declared.announced realized, ∃ delta,
        calculation.evaluate
          { announced := s.declared.announced.set primary (some shortfall.announced)
            realized := realized.set primary (some shortfall.realized) } = .ok delta

variable {r : Rule} {s : Submission}

theorem Evaluates.exists_points (h : r.Evaluates s) (hpoints : r.hasPoints = true) :
    ∃ points, r.points s.realized = .ok points := by
  unfold Rule.points
  rw [if_pos hpoints]
  cases hcalculation : r.pointsCalculation with
  | none => exact ⟨_, rfl⟩
  | some calculation =>
      obtain ⟨result, hresult⟩ := h.points calculation hcalculation
      dsimp only
      rw [Calculation.run_of_evaluate hresult]
      exact ⟨_, rfl⟩

theorem Evaluates.exists_withPoints (h : r.Evaluates s) (hwired : r.IsWired) :
    ∃ realized, r.withPoints s.realized = .ok realized := by
  by_cases hpoints : r.hasPoints = true
  · obtain ⟨primary, hprimary⟩ := Option.isSome_iff_exists.mp (hwired hpoints)
    cases hmeasured : s.realized.get primary with
    | none => exact ⟨_, withPoints_of_get_eq_none hprimary hmeasured⟩
    | some value =>
        obtain ⟨points, hawarded⟩ := h.exists_points hpoints
        exact ⟨_, withPoints_of_points hpoints hprimary hmeasured hawarded⟩
  · exact ⟨s.realized, if_neg hpoints⟩

theorem Evaluates.exists_short? (h : r.Evaluates s) {realized : Performance}
    (hfilled : r.withPoints s.realized = .ok realized) :
    ∃ short, r.short? s.declared.announced realized = .ok short := by
  rcases r.short?_cases s.declared.announced realized with ⟨-, hnone⟩ |
    ⟨primary, target, calculation, shortfall, hprimary, -, hcalculation, hshortfall, heq⟩
  · exact ⟨none, hnone⟩
  · obtain ⟨delta, hdelta⟩ :=
      h.short realized hfilled primary hprimary calculation hcalculation shortfall hshortfall
    rw [heq, Calculation.run_of_evaluate hdelta]
    exact ⟨_, rfl⟩

theorem Evaluates.exists_submit (h : r.Evaluates s) (hwired : r.IsWired) :
    ∃ record, r.submit s = .ok record := by
  obtain ⟨realized, hfilled⟩ := h.exists_withPoints hwired
  obtain ⟨short, hshort⟩ := h.exists_short? hfilled
  exact ⟨_, submit_eq_ok.mpr ⟨realized, short, hfilled, hshort, rfl⟩⟩

theorem submit_of_not_isWired (h : ¬ r.IsWired) (s : Submission) :
    r.submit s = .error .absentComponent := by
  unfold IsWired at h
  rw [Classical.not_imp, Bool.not_eq_true, Option.isSome_eq_false_iff,
    Option.isNone_iff_eq_none] at h
  unfold submit withPoints
  rw [if_pos h.1, h.2]
  rfl

theorem isWired_of_primary (h : r.primary.isSome = true) :
    r.IsWired ∧ r.target.isSome = true := by
  refine ⟨fun _ => h, ?_⟩
  unfold target
  split
  · rfl
  · exact h

end Rule

namespace Entry

variable {e : Entry} {given : Datum} {realized : Performance}

theorem build_of_isCardOnly (h : e.isCardOnly = true) (given : Datum) (realized : Performance)
    (target : Option Component) :
    e.build given realized target = .ok (e.penalization none .empty) := by
  unfold isCardOnly at h
  unfold build
  rw [Option.isNone_iff_eq_none.mp h]

theorem build_without_target (h : e.isCardOnly = false) (haccepts : e.Accepts given)
    (hevaluates : e.Evaluates given realized) :
    e.build given realized none = .error .absentComponent := by
  unfold isCardOnly at h
  obtain ⟨calculation, hcalculation⟩ :=
    Option.isSome_iff_exists.mp (Option.isNone_eq_false_iff.mp h)
  obtain ⟨input, hread, -⟩ := exists_ruleInput haccepts
  obtain ⟨delta, hdelta⟩ := hevaluates calculation hcalculation input hread
  unfold build
  rw [hcalculation]
  dsimp only
  rw [hread]
  change (calculation.run { input, realized } >>= _) = _
  rw [Calculation.run_of_evaluate hdelta]
  rfl

end Entry

namespace Session

theorem submitted_of_not_isWired (session : Session) {r : Rule} (h : ¬ r.IsWired)
    (s : Submission) : session.submitted r s = .error (.rule .absentComponent) := by
  rw [submitted_eq, Rule.submit_of_not_isWired h]
  rfl

section

variable (session : Session) {r : Rule} {e : Entry} (he : e ∈ r.penalizations)

include he

theorem run_penalize_entry (given : Datum) (realized : Performance) :
    (session.run (penalize (.definition r) (.text e.id) given realized)).1 =
      (e.build given realized r.target).mapError .rule := by
  rw [← Rule.penalize_of_mem he rfl]
  exact session.run_penalize r _ given realized

theorem run_penalize_without_target {given : Datum} {realized : Performance}
    (haccepts : e.Accepts given) (hevaluates : e.Evaluates given realized)
    (h : ¬ (e.isCardOnly = true ∨ r.target.isSome = true)) :
    (session.run (penalize (.definition r) (.text e.id) given realized)).1 =
      .error (.rule .absentComponent) := by
  rw [not_or, Bool.not_eq_true, Option.not_isSome_iff_eq_none] at h
  rw [session.run_penalize_entry he, h.2, Entry.build_without_target h.1 haccepts hevaluates]
  rfl

theorem exists_run_penalize {given : Datum} {realized : Performance}
    (haccepts : e.Accepts given) (hevaluates : e.Evaluates given realized)
    (h : e.isCardOnly = true ∨ r.target.isSome = true) :
    ∃ p, (session.run (penalize (.definition r) (.text e.id) given realized)).1 = .ok p := by
  rw [session.run_penalize_entry he]
  rcases h with hcard | htarget
  · rw [Entry.build_of_isCardOnly hcard]
    exact ⟨_, rfl⟩
  · obtain ⟨target, htarget⟩ := Option.isSome_iff_exists.mp htarget
    obtain ⟨p, hp, -⟩ := Entry.exists_build haccepts hevaluates target
    rw [htarget, hp]
    exact ⟨p, rfl⟩

end

/-- Where the calculations have outcomes, an attempt is recorded just if the rule is wired, and
an entry makes a penalization just if it carries a card alone or there is a component to deduct
from. What fails otherwise fails for want of that component; a rule that measures one has both. -/
theorem scoring_complete (session : Session) (r : Rule) :
    (∀ s : Submission, r.Evaluates s →
      ((∃ record, session.submitted r s = .ok record) ↔ r.IsWired) ∧
      (¬ r.IsWired → session.submitted r s = .error (.rule .absentComponent))) ∧
    (∀ e ∈ r.penalizations, ∀ given realized, e.Accepts given → e.Evaluates given realized →
      let built := (session.run (penalize (.definition r) (.text e.id) given realized)).1
      ((∃ p, built = .ok p) ↔ e.isCardOnly = true ∨ r.target.isSome = true) ∧
      (¬ (e.isCardOnly = true ∨ r.target.isSome = true) →
        built = .error (.rule .absentComponent))) ∧
    (r.primary.isSome = true → r.IsWired ∧ r.target.isSome = true) := by
  refine ⟨?_, ?_, Rule.isWired_of_primary⟩
  · intro s hevaluates
    refine ⟨⟨?_, ?_⟩, fun hwired => session.submitted_of_not_isWired hwired s⟩
    · rintro ⟨record, hrecord⟩
      by_contra hwired
      rw [session.submitted_of_not_isWired hwired] at hrecord
      cases hrecord
    · intro hwired
      obtain ⟨record, hrecord⟩ := hevaluates.exists_submit hwired
      exact ⟨record, submitted_eq_ok.mpr hrecord⟩
  · intro e he given realized haccepts hevaluates built
    have hfails := session.run_penalize_without_target he haccepts hevaluates
    refine ⟨⟨?_, session.exists_run_penalize he haccepts hevaluates⟩, hfails⟩
    rintro ⟨p, hp⟩
    by_contra hnone
    rw [show built = _ from hfails hnone] at hp
    cases hp

theorem evaluates_dyn (s : Submission) : Federations.Cmas.dyn.Evaluates s where
  points := nofun
  short := by
    rintro realized - primary ⟨⟩ calculation ⟨⟩ shortfall -
    have hannounced := s.declared.announced.get_set_self .distance (some shortfall.announced)
    have hrealized := realized.get_set_self .distance (some shortfall.realized)
    exact ⟨_, Federations.evaluate_plus_number
      (Federations.evaluate_shortage (by decide) hannounced hrealized)⟩

def shortSwim : Submission where
  declared := .performance { distance := some (.ofDecimal false 100 0) }
  realized := { distance := some (.ofDecimal false 90 0) }
  card := .white

theorem scoring_complete_dyn :
    (∃ record, submitted {} Federations.Cmas.dyn shortSwim = .ok record) ∧
    ∃ p, (run {} (penalize (.definition Federations.Cmas.dyn) (.text "Lane") (.text "2")
      shortSwim.realized)).1 = .ok p := by
  obtain ⟨hsubmitted, hbuilt, hwired⟩ := scoring_complete {} Federations.Cmas.dyn
  obtain ⟨hrule, htarget⟩ := hwired rfl
  have hdyn : Federations.Cmas.dyn ∈ Federations.all := by simp [Federations.all]
  have hlane : Federations.Cmas.lane ∈ Federations.Cmas.dyn.penalizations := by
    simp [Federations.Cmas.dyn, Federations.Cmas.fields]
  have hevaluates := (Federations.kind_of_mem hdyn _ hlane).evaluates (.text "2") shortSwim.realized
  exact ⟨(hsubmitted shortSwim (evaluates_dyn shortSwim)).1.mpr hrule,
    (hbuilt _ hlane _ _ (fun _ => ⟨_, denotes_two⟩) hevaluates).1.mpr (.inr htarget)⟩

def pointForAll : RuleFields where
  name := "PointForAll"
  hasPoints := true
  pointsCalculation := some (Federations.number 1)

def fiveFromNothing : RuleFields where
  name := "FiveFromNothing"
  penalizations := [Federations.fixed "Touch" "Touch" "Touch" 5]

/-- Both pass the checks of a rule, and neither scores. -/
theorem unwired_fails :
    (∃ r, pointForAll.check = .ok r ∧ r.Evaluates {} ∧
      submitted {} r {} = .error (.rule .absentComponent)) ∧
    ∃ r, fiveFromNothing.check = .ok r ∧ ∃ e ∈ r.penalizations, e.id = "Touch" ∧
      e.Accepts .null ∧ e.Evaluates .null {} ∧
      (run {} (penalize (.definition r) (.text "Touch") .null {})).1 =
        .error (.rule .absentComponent) := by
  constructor
  · have hids : pointForAll.ids.Nodup := by decide
    have hpoints : pointForAll.hasPoints = true → pointForAll.pointsCalculation.isSome = true :=
      fun _ => rfl
    refine ⟨⟨pointForAll, hids, hpoints⟩, ?_, ⟨?_, ?_⟩, ?_⟩
    · unfold RuleFields.check
      rw [dif_pos hids, dif_pos hpoints]
    · rintro calculation ⟨⟩
      exact ⟨_, Federations.evaluate_number 1⟩
    · rintro realized - primary ⟨⟩
    · apply submitted_of_not_isWired
      exact fun hwired => absurd (hwired rfl) Bool.false_ne_true
  · have hids : fiveFromNothing.ids.Nodup := by decide
    have hpoints : fiveFromNothing.hasPoints = true →
        fiveFromNothing.pointsCalculation.isSome = true := nofun
    have haccepts : (Federations.fixed "Touch" "Touch" "Touch" 5).Accepts .null := nofun
    have hevaluates : (Federations.fixed "Touch" "Touch" "Touch" 5).Evaluates .null .empty := by
      rintro calculation ⟨⟩ input -
      exact ⟨_, Federations.evaluate_number 5⟩
    let r : Rule := ⟨fiveFromNothing, hids, hpoints⟩
    have hmem : Federations.fixed "Touch" "Touch" "Touch" 5 ∈ r.penalizations :=
      List.mem_cons_self
    refine ⟨r, ?_, _, hmem, rfl, haccepts, hevaluates, ?_⟩
    · unfold RuleFields.check
      rw [dif_pos hids, dif_pos hpoints]
    · exact run_penalize_without_target _ hmem haccepts hevaluates
        (not_or_intro Bool.false_ne_true Bool.false_ne_true)

end Session

end ApneaScoring
