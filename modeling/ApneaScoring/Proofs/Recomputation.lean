import ApneaScoring.Proofs.Deterrence

namespace ApneaScoring

namespace Performance

def restrict (p : Performance) (keep : Component → Bool) : Performance :=
  .ofComponents fun c => if keep c then p.get c else none

theorem get_restrict (p : Performance) (keep : Component → Bool) (c : Component) :
    (p.restrict keep).get c = if keep c then p.get c else none :=
  get_ofComponents _ c

end Performance

theorem finalPerformance_restrict (realized : Performance) (ps : List Penalization)
    (card : Card) (target : Option Component) (measured : Component → Bool) :
    (finalPerformance realized ps card target fun _ => true).restrict measured =
      finalPerformance realized ps card target measured := by
  apply Performance.ext_get
  intro c
  rw [Performance.get_restrict, finalPerformance, finalPerformance,
    Performance.get_ofComponents, Performance.get_ofComponents]
  unfold finalComponent
  rw [if_pos rfl]

namespace Comparator

def Reads (comparator : Comparator) (c : Component) : Prop :=
  ∃ direction, (direction, Criterion.final c) ∈ comparator.criteria

theorem value_congr {comparator : Comparator} {s s' : Standing}
    (hannounced : s'.announced = s.announced) (hrealized : s'.realized = s.realized)
    (hfinal : ∀ c, comparator.Reads c → s'.final.get c = s.final.get c) :
    ∀ link ∈ comparator.criteria, link.2.value s' = link.2.value s := by
  rintro ⟨direction, criterion⟩ hlink
  cases criterion with
  | final c =>
      unfold Criterion.value
      dsimp only
      rw [hfinal c ⟨direction, hlink⟩]
  | deviation c =>
      unfold Criterion.value deviation
      dsimp only
      rw [hannounced, hrealized]

theorem compare_final_congr {comparator : Comparator} {s s' : Standing}
    (hannounced : s'.announced = s.announced) (hrealized : s'.realized = s.realized)
    (hfinal : ∀ c, comparator.Reads c → s'.final.get c = s.final.get c) (other : Standing) :
    comparator.compare s' other = comparator.compare s other ∧
      comparator.compare other s' = comparator.compare other s := by
  have hvalue := value_congr hannounced hrealized hfinal
  have hleft : comparator.compare s' other = comparator.compare s other := by
    apply compare_congr
    intro link hlink
    unfold Criterion.compare
    rw [hvalue link hlink]
  refine ⟨hleft, ?_⟩
  rw [compare_swap comparator s' other, hleft, ← compare_swap]

theorem Rewards.eq_of_reads {comparator : Comparator} {target c : Component}
    (h : comparator.Rewards target) (hreads : comparator.Reads c) : c = target := by
  obtain ⟨direction, hlink⟩ := hreads
  induction h with
  | value =>
      cases List.mem_singleton.mp hlink
      rfl
  | parted component _ ih =>
      rcases List.mem_append.mp hlink with hearlier | hlast
      · exact ih hearlier
      · cases List.mem_singleton.mp hlast

end Comparator

/-- The federation rules measure what they deduct from and what their comparators read. -/
theorem Federations.measures_of_read {r : Rule} (hr : r ∈ Federations.all) {c : Component}
    (hc : r.target = some c ∨ r.comparator.Reads c) : r.measures c = true := by
  obtain ⟨primary, target, k, hscores, -⟩ := Federations.exists_scoresBy hr
  have htarget := hscores.target_eq
  obtain rfl : c = target := by
    rcases hc with heq | hreads
    · exact Option.some.inj (heq.symm.trans htarget)
    · exact (Federations.rewards hr htarget).eq_of_reads hreads
  exact hscores.measures_target

namespace Session

/-- What is recorded as final is what the record is reconciled to, less the components that
the rule does not measure; under a federation rule the two rank alike. -/
theorem submitted_reconciled {session : Session} {r : Rule} {s : Submission}
    {record : Recorded} (h : session.submitted r s = .ok record) (hoverride : s.override = none)
    (later : Session) :
    ∃ recomputed, (later.run (reconcile (.definition r) record.realized record.penalizations
        record.card)).1 = .ok recomputed ∧
      (∀ c, r.measures c = true → recomputed.get c = record.final.get c) ∧
      record.final = recomputed.restrict r.measures ∧
      (r ∈ Federations.all →
        (∀ c, r.target = some c ∨ r.comparator.Reads c → r.measures c = true) ∧
        ∀ (announcement : Option Announcement) (other : Standing),
          let stored := record.standing announcement
          let again := { stored with final := recomputed }
          r.comparator.compare again other = r.comparator.compare stored other ∧
            r.comparator.compare other again = r.comparator.compare other stored) := by
  have hfinal : record.final =
      (r.reconcile record.realized record.penalizations record.card).restrict r.measures := by
    obtain ⟨realized, short, -, -, rfl⟩ := Rule.submit_eq_ok.mp (submitted_eq_ok.mp h)
    rw [Rule.reconcile, finalPerformance_restrict]
    unfold Rule.recorded
    rw [hoverride]
    rfl
  have hmeasured : ∀ c, r.measures c = true →
      (r.reconcile record.realized record.penalizations record.card).get c =
        record.final.get c := by
    intro c hc
    rw [hfinal, Performance.get_restrict, if_pos hc]
  refine ⟨_, later.run_reconcile r _ _ _, hmeasured, hfinal, fun hr => ?_⟩
  have hread := fun c => Federations.measures_of_read hr (c := c)
  refine ⟨hread, fun announcement other => ?_⟩
  apply Comparator.compare_final_congr
  · rfl
  · rfl
  · intro c hreads
    exact hmeasured c (hread c (.inr hreads))

def timedSwim : Submission where
  declared := .performance { distance := some (.ofDecimal false 100 0) }
  realized := { distance := some (.ofDecimal false 90 0), duration := some (.ofDecimal false 75 0) }
  penalizations :=
    [{ id := "Lane", reason := "Out of lane", shortReason := "Lane", card := .yellow
       delta := { distance := some (.ofDecimal false 5 0) } }]
  card := .white

def recordOfTimedSwim : Recorded where
  discipline := ""
  realized := timedSwim.realized
  final := { distance := some (.ofDecimal false 70 0) }
  penalizations :=
    Rule.shortPenalization .distance (some (.ofDecimal false 15 0)) :: timedSwim.penalizations
  card := .yellow

def recomputedTimedSwim : Performance where
  distance := some (.ofDecimal false 70 0)
  duration := some (.ofDecimal false 75 0)

theorem submitted_reconciled_timedSwim :
    submitted {} Federations.Cmas.dyn timedSwim = .ok recordOfTimedSwim ∧
    recordOfTimedSwim.final = recomputedTimedSwim.restrict Federations.Cmas.dyn.measures ∧
    ∀ other : Standing, Federations.Cmas.dyn.comparator.compare
        { recordOfTimedSwim.standing none with final := recomputedTimedSwim } other =
      Federations.Cmas.dyn.comparator.compare (recordOfTimedSwim.standing none) other := by
  have h : submitted {} Federations.Cmas.dyn timedSwim = .ok recordOfTimedSwim := by
    decide +kernel
  have hdyn : Federations.Cmas.dyn ∈ Federations.all := by decide +kernel
  obtain ⟨recomputed, hrun, -, hfinal, hranked⟩ := submitted_reconciled h rfl {}
  have hrecomputed : Federations.Cmas.dyn.reconcile recordOfTimedSwim.realized
      recordOfTimedSwim.penalizations recordOfTimedSwim.card = recomputedTimedSwim := by
    decide +kernel
  rw [run_reconcile, hrecomputed] at hrun
  obtain rfl := Except.ok.inj hrun
  exact ⟨h, hfinal, fun other => ((hranked hdyn).2 none other).1⟩

end Session

end ApneaScoring
