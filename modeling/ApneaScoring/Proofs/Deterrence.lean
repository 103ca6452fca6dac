import ApneaScoring.Proofs.Fairness
import ApneaScoring.Proofs.Points
import ApneaScoring.Proofs.Ranking

/-! One more penalization at most lowers the final value. The comparators of the federations look
at that value first and then at deviations, which no penalization touches. -/

namespace ApneaScoring

/-- Both are absent, or the second is not above the first, nor below zero. -/
def Lowered (x x' : Option Binary64) : Prop :=
  x = none ∧ x' = none ∨
    ∃ v v', x = some v ∧ x' = some v' ∧ Binary64.zero.le v' = true ∧ v'.le v = true

theorem Lowered.orZero_le {x x' : Option Binary64} (h : Lowered x x') :
    (Binary64.orZero x').le (Binary64.orZero x) = true := by
  rw [Binary64.le_orZero]
  rcases h with ⟨rfl, rfl⟩ | ⟨v, v', rfl, rfl, -, hle⟩
  · exact Binary64.le_refl Binary64.zero_ne_nan
  · exact hle

theorem Lowered.isFinite {x x' : Option Binary64} (h : Lowered x x')
    (hx : ∀ v ∈ x, v.isFinite = true) : ∀ v' ∈ x', v'.isFinite = true := by
  intro w hw
  rcases h with ⟨-, rfl⟩ | ⟨v, v', rfl, rfl, hnonneg, hle⟩
  · cases hw
  · rw [← Option.some.inj hw]
    exact Binary64.isFinite_of_le hnonneg hle (hx v rfl)

namespace Standing

/-- The standing of one attempt at one announcement, less being left of a component. -/
structure Lowers (target : Component) (s s' : Standing) : Prop where
  announced : s'.announced = s.announced
  realized : s'.realized = s.realized
  final : Lowered (s.final.get target) (s'.final.get target)

/-- What is seen of a standing where the final performance counts by one component. -/
def seen (target : Component) (s : Standing) : Standing :=
  { s with final := .only target (s.final.get target) }

theorem isFinite_seen {target : Component} {s : Standing}
    (hannounced : s.announced.IsFinite) (hrealized : s.realized.IsFinite)
    (hfinal : ∀ x ∈ s.final.get target, x.isFinite = true) : (s.seen target).IsFinite where
  announced := hannounced
  realized := hrealized
  final c x hx := by
    change x ∈ (Performance.only target (s.final.get target)).get c at hx
    by_cases hc : c = target
    · rw [hc, Performance.get_only_self] at hx
      exact hfinal x hx
    · rw [Performance.get_only_of_ne _ hc] at hx
      cases hx

theorem Lowers.isFinite_seen {target : Component} {s s' : Standing} (h : s.Lowers target s')
    (hs : s.IsFinite) : (s'.seen target).IsFinite :=
  Standing.isFinite_seen (h.announced ▸ hs.announced) (h.realized ▸ hs.realized)
    (h.final.isFinite (hs.final target))

end Standing

namespace Comparator

inductive Rewards (target : Component) : Comparator → Prop
  | value : Rewards target (tie.descending (.final target))
  | parted {c : Comparator} (component : Component) :
      Rewards target c → Rewards target (c.ascending (.deviation component))

namespace Rewards

variable {target : Component} {c : Comparator}

theorem compare_seen (h : c.Rewards target) (a b : Standing) :
    c.compare (a.seen target) (b.seen target) = c.compare a b := by
  induction h with
  | value =>
      have hvalue : ∀ s : Standing,
          (Criterion.final target).value (s.seen target) = (Criterion.final target).value s :=
        fun s => congrArg Binary64.orZero (Performance.get_set_self .empty target _)
      unfold descending
      rw [compare_thenBy, compare_thenBy]
      unfold Criterion.compare
      rw [hvalue, hvalue]
      rfl
  | parted component _ ih =>
      unfold ascending
      rw [compare_thenBy, compare_thenBy, ih]
      rfl

/-- Standings of one attempt at one announcement are told apart by the component alone. -/
theorem compare_eq (h : c.Rewards target) {a b : Standing} (hannounced : a.announced = b.announced)
    (hrealized : a.realized = b.realized) :
    c.compare a b = ((Criterion.final target).compare a b).swap := by
  induction h with
  | value => rfl
  | parted component _ ih =>
      have hdeviation : deviation component a = deviation component b := by
        unfold deviation
        rw [hannounced, hrealized]
      have htied : (Criterion.deviation component).compare a b = .eq := by
        unfold Criterion.compare Criterion.value
        dsimp only
        rw [hdeviation]
        exact Binary64.order_self _
      unfold ascending
      rw [compare_thenBy, htied, ih]
      exact Ordering.then_eq

theorem compare_ne_lt (h : c.Rewards target) {s s' : Standing} (hlowers : s.Lowers target s') :
    c.compare s' s ≠ .lt := by
  rw [h.compare_eq hlowers.announced hlowers.realized]
  intro hlt
  exact Binary64.order_ne_gt hlowers.final.orZero_le (Ordering.swap_eq_lt.mp hlt)

theorem rank_lowered {α : Type _} {standing : α → Standing} {front back : List α} {x x' : α}
    (h : c.Rewards target) (hlowers : (standing x).Lowers target (standing x'))
    (hfinite : ∀ y ∈ front ++ x :: back, (standing y).IsFinite) :
    ∃ place place', (∀ n, (n, x) ∈ c.rank standing (front ++ x :: back) ↔ n = place) ∧
      (∀ n, (n, x') ∈ c.rank standing (front ++ x' :: back) ↔ n = place') ∧
      place ≤ place' := by
  have hseen : ∀ y z, c.compare (standing y) (standing z) =
      c.compare ((standing y).seen target) ((standing z).seen target) :=
    fun y z => (h.compare_seen _ _).symm
  rw [rank_congr hseen, rank_congr hseen]
  apply rank_replace
  · intro y hy
    have hy := hfinite y hy
    exact Standing.isFinite_seen hy.announced hy.realized (hy.final target)
  · exact hlowers.isFinite_seen (hfinite x (by simp))
  · rw [← hseen]
    exact h.compare_ne_lt hlowers

end Rewards

end Comparator

theorem Federations.rewards {r : Rule} (hr : r ∈ Federations.all) {target : Component}
    (htarget : r.target = some target) : r.comparator.Rewards target := by
  simp only [Federations.all, List.mem_cons, List.not_mem_nil, or_false] at hr
  rcases hr with rfl | rfl | rfl | rfl | rfl | rfl | rfl <;> cases htarget
  · exact .parted .duration .value
  · exact .parted .distance .value
  · exact .parted .depth .value
  · exact .parted .duration .value
  · exact .parted .distance .value
  · exact .parted .duration (.parted .depth .value)
  · exact .parted .distance .value

namespace Binary64

theorem foldl_add_insert {before after : List Binary64}
    (hbefore : ∀ e ∈ before, e.isFinite = true) (hafter : ∀ e ∈ after, e.isFinite = true)
    {d : Binary64} (hd : d.IsMeasure) {x : Binary64} (hx : x ≠ nan) :
    ((before ++ after).foldl (· + ·) x).le ((before ++ d :: after).foldl (· + ·) x) = true := by
  obtain ⟨hfinite, hnonneg⟩ := isMeasure_iff.mp hd
  rw [List.foldl_append, List.foldl_append, List.foldl_cons]
  exact foldl_add_le hafter (le_add_right (foldl_add_ne_nan hbefore hx) hfinite hnonneg)

end Binary64

namespace Submission

variable {s : Submission} {before after : List Penalization} {p : Penalization} {c : Component}

/-- The second attempt has one more deduction from a component, and is red if the first is. -/
structure Aggravates (c : Component) (s s' : Submission) : Prop where
  red : s.isRed = true → s'.isRed = true
  deltas : ∃ (before after : List Binary64) (d : Binary64), s.deltas c = before ++ after ∧
    s'.deltas c = before ++ d :: after ∧ (∀ e ∈ before ++ after, e.isFinite = true) ∧ d.IsMeasure

theorem isRed_insert
    (h : ({ s with penalizations := before ++ after } : Submission).isRed = true) :
    ({ s with penalizations := before ++ p :: after } : Submission).isRed = true := by
  unfold isRed at h ⊢
  rw [decide_eq_true_iff] at h ⊢
  have hsublist : (before ++ after).Sublist (before ++ p :: after) :=
    (List.Sublist.refl before).append (List.sublist_cons_self p after)
  have hcards := ((hsublist.filter (!·.claimsShort)).map (·.card)).subset
  rcases List.mem_cons.mp h with hjudge | hcard
  · exact List.mem_cons.mpr (.inl hjudge)
  · exact List.mem_cons_of_mem _ (hcards hcard)

theorem deltas_append (s : Submission) (before after : List Penalization) (c : Component) :
    ({ s with penalizations := before ++ after } : Submission).deltas c =
      ({ s with penalizations := before } : Submission).deltas c ++
        ({ s with penalizations := after } : Submission).deltas c := by
  unfold deltas genuine
  rw [List.filter_append, List.map_append]

theorem deltas_cons (s : Submission) (hp : p.claimsShort = false) (after : List Penalization)
    (c : Component) :
    ({ s with penalizations := p :: after } : Submission).deltas c =
      Binary64.orZero (p.delta.get c) ::
        ({ s with penalizations := after } : Submission).deltas c := by
  unfold deltas genuine
  rw [List.filter_cons_of_pos (by simp [hp]), List.map_cons]

theorem aggravates_insert (s : Submission) (hdeltas : ∀ q ∈ before ++ after, q.delta.IsFinite)
    (hp : p.claimsShort = false) (hdelta : ∀ d ∈ p.delta.get c, d.IsMeasure) :
    Aggravates c { s with penalizations := before ++ after }
      { s with penalizations := before ++ p :: after } where
  red := isRed_insert
  deltas := by
    refine ⟨_, _, _, s.deltas_append before after c, ?_, ?_, Binary64.isMeasure_orZero hdelta⟩
    · rw [s.deltas_append, s.deltas_cons hp]
    · rw [← s.deltas_append]
      exact isFinite_deltas hdeltas c

end Submission

namespace Rule

variable {r : Rule} {primary target : Component} {k : Scale} {s s' : Submission}
  {realized : Performance} {short : Option Penalization}

theorem get_final_of_get_eq_none (hoverride : s.override = none) {c : Component}
    (hnone : realized.get c = none) : (r.recorded s realized short).final.get c = none := by
  unfold recorded
  dsimp only
  rw [hoverride, Option.getD_none]
  unfold finalPerformance
  rw [Performance.get_ofComponents]
  unfold finalComponent
  rw [hnone]
  split <;> rfl

theorem get_final_aggravated (haggravates : s.Aggravates target s')
    (hoverride : s.override = none) (hoverride' : s'.override = none)
    (htarget : r.target = some target) (hmeasures : r.measures target = true)
    (hfilled : ∀ t ∈ realized.get target, t.IsMeasure) (hyellow : ∀ q ∈ short, q.card = .yellow)
    (hshort : deduction short.toList target ≠ .nan) :
    Lowered ((r.recorded s realized short).final.get target)
      ((r.recorded s' realized short).final.get target) := by
  cases ht : realized.get target with
  | none =>
      exact .inl ⟨get_final_of_get_eq_none hoverride ht, get_final_of_get_eq_none hoverride' ht⟩
  | some t =>
      refine .inr ⟨_, _, get_final_recorded hoverride htarget hmeasures ht hyellow,
        get_final_recorded hoverride' htarget hmeasures ht hyellow, ?_, ?_⟩
      · split
        · exact Binary64.le_refl Binary64.zero_ne_nan
        · exact Binary64.zero_le_floored _
      · by_cases hred : s'.isRed = true
        · rw [if_pos hred]
          split
          · exact Binary64.le_refl Binary64.zero_ne_nan
          · exact Binary64.zero_le_floored _
        · rw [if_neg hred, if_neg fun h => hred (haggravates.red h)]
          obtain ⟨before, after, d, hdeltas, hdeltas', hfinite, hd⟩ := haggravates.deltas
          have hmeasure := hfilled t ht
          have hsum := Binary64.foldl_add_insert
            (fun e he => hfinite e (List.mem_append_left after he))
            (fun e he => hfinite e (List.mem_append_right before he)) hd hshort
          rw [hdeltas, hdeltas']
          apply Binary64.floored_le
          exact Binary64.sub_le_sub (Binary64.le_refl hmeasure.ne_nan) hsum hmeasure.1 hmeasure.1

namespace ScoresBy

theorem exists_withPoints (h : r.ScoresBy primary target k) (hk : k.IsMonotone)
    {given : Performance} (hgiven : given.IsMeasured) :
    ∃ realized, r.withPoints given = .ok realized ∧
      realized.get primary = given.get primary ∧ ∀ t ∈ realized.get target, t.IsMeasure := by
  cases hx : given.get primary with
  | none => exact ⟨given, withPoints_of_get_eq_none h.primary_eq hx, hx, hgiven target⟩
  | some x =>
      obtain ⟨realized, hfilled, hprimary, hscore⟩ := h.withPoints hx
      exact ⟨realized, hfilled, hprimary,
        (hk.isMeasure_score (hgiven primary x hx)).forall_mem hscore⟩

theorem exists_short? (h : r.ScoresBy primary target k) (hk : k.IsMonotone)
    {announced : Performance} (ha : ∀ a ∈ announced.get primary, a.IsMeasure)
    (hb : ∀ b ∈ realized.get primary, b.IsMeasure) :
    ∃ short, r.short? announced realized = .ok short ∧ (∀ q ∈ short, q.card = .yellow) ∧
      deduction short.toList target ≠ .nan := by
  refine ⟨_, h.short?_eq ha hb, ?_⟩
  split
  · refine ⟨fun q hq => ?_, Binary64.zero_ne_nan⟩
    cases hq
  · next hle =>
      refine ⟨fun q hq => ?_, ?_⟩
      · rw [← Option.some.inj hq]
        rfl
      · have hshort := (Binary64.isMeasure_orZero ha).sub (Binary64.isMeasure_orZero hb) hle
        have hcharge := hk.charge.nonneg hshort
        rw [Option.toList_some, deduction_shortPenalization]
        exact (Binary64.le_iff.mp
          (Binary64.zero_le_zero_add ((Binary64.le_orZero none (some _)).trans hcharge))).2.1

/-- Both attempts are recorded, and less is left of the aggravated one. -/
theorem submit_aggravated (h : r.ScoresBy primary target k) (hk : k.IsMonotone)
    (haggravates : s.Aggravates target s') (hdeclared : s'.declared = s.declared)
    (hrealized : s'.realized = s.realized) (hoverride : s.override = none)
    (hoverride' : s'.override = none) (hannounced : s.declared.announced.IsMeasured)
    (hgiven : s.realized.IsMeasured) (announcement : Option Announcement) :
    ∃ record record', r.submit s = .ok record ∧ r.submit s' = .ok record' ∧
      (record.standing announcement).Lowers target (record'.standing announcement) := by
  obtain ⟨realized, hfilled, hprimary, hvalue⟩ := h.exists_withPoints hk hgiven
  obtain ⟨short, hshort, hyellow, hdeduction⟩ :=
    h.exists_short? hk (hannounced primary) (hprimary ▸ hgiven primary)
  refine ⟨_, _, submit_eq_ok.mpr ⟨realized, short, hfilled, hshort, rfl⟩,
    submit_eq_ok.mpr ⟨realized, short, ?_, ?_, rfl⟩, rfl, rfl, ?_⟩
  · rw [hrealized, hfilled]
  · rw [hdeclared, hshort]
  · exact get_final_aggravated haggravates hoverride hoverride' h.target_eq h.measures_target
      hvalue hyellow hdeduction

end ScoresBy

end Rule

universe u

namespace Session

/-- Under the rules of the federations one more penalization does not put an attempt ahead of
what it was without it, and ranks it no better among any others. -/
theorem submitted_penalized {r : Rule} (hr : r ∈ Federations.all) {target : Component}
    (htarget : r.target = some target) (session : Session) {s : Submission}
    (hoverride : s.override = none) (hannounced : s.declared.announced.IsMeasured)
    (hrealized : s.realized.IsMeasured) (before after : List Penalization)
    (hdeltas : ∀ q ∈ before ++ after, q.delta.IsFinite) (p : Penalization)
    (hp : p.claimsShort = false) (hdelta : ∀ d ∈ p.delta.get target, d.IsMeasure)
    (announcement : Option Announcement) :
    ∃ record record',
      session.submitted r { s with penalizations := before ++ after } = .ok record ∧
      session.submitted r { s with penalizations := before ++ p :: after } = .ok record' ∧
      r.comparator.compare (record'.standing announcement) (record.standing announcement) ≠
        .lt ∧
      ∀ {α : Type u} (standing : α → Standing) (front back : List α) (x x' : α),
        standing x = record.standing announcement →
        standing x' = record'.standing announcement →
        (∀ y ∈ front ++ x :: back, (standing y).IsFinite) →
        ∃ place place',
          (∀ n, (n, x) ∈ r.comparator.rank standing (front ++ x :: back) ↔ n = place) ∧
          (∀ n, (n, x') ∈ r.comparator.rank standing (front ++ x' :: back) ↔ n = place') ∧
          place ≤ place' := by
  obtain ⟨primary, target', k, hscores, hk⟩ := Federations.exists_scoresBy hr
  obtain rfl := Option.some.inj (htarget.symm.trans hscores.target_eq)
  obtain ⟨record, record', hrecord, hrecord', hlowers⟩ :=
    hscores.submit_aggravated hk (s.aggravates_insert hdeltas hp hdelta) rfl rfl hoverride
      hoverride hannounced hrealized announcement
  have hrewards := Federations.rewards hr htarget
  refine ⟨record, record', submitted_eq_ok.mpr hrecord, submitted_eq_ok.mpr hrecord',
    hrewards.compare_ne_lt hlowers, ?_⟩
  intro α standing front back x x' hx hx' hfinite
  rw [← hx, ← hx'] at hlowers
  exact hrewards.rank_lowered hlowers hfinite

def fiveSecondsOff : Penalization where
  id := "Lane"
  reason := "Out of lane"
  shortReason := "Lane"
  delta := { duration := some (.ofDecimal false 5 0) }
  card := .yellow

def rival : Standing where
  final := { duration := some (.ofDecimal false 76 0) }

theorem submitted_penalized_lane :
    ∃ record', submitted {} Federations.Cmas.sta { madeUpShort with
        penalizations := madeUpShort.penalizations ++ [fiveSecondsOff] } = .ok record' ∧
      Federations.Cmas.sta.comparator.compare (record'.standing none)
        (recordOfMadeUpShort.standing none) ≠ .lt ∧
      ∃ place place',
        (∀ n, (n, recordOfMadeUpShort.standing none) ∈ Federations.Cmas.sta.comparator.rank id
          [rival, recordOfMadeUpShort.standing none] ↔ n = place) ∧
        (∀ n, (n, record'.standing none) ∈ Federations.Cmas.sta.comparator.rank id
          [rival, record'.standing none] ↔ n = place') ∧
        place ≤ place' := by
  have hsta : Federations.Cmas.sta ∈ Federations.all := by simp [Federations.all]
  obtain ⟨record, record', hrecord, hrecord', hnot, hrank⟩ :=
    submitted_penalized hsta rfl {} (s := madeUpShort) rfl (by decide +kernel)
      (by decide +kernel) madeUpShort.penalizations [] (by decide +kernel) fiveSecondsOff
      (by decide) (by decide +kernel) none
  have hsame : submitted {} Federations.Cmas.sta { madeUpShort with
      penalizations := madeUpShort.penalizations ++ [] } = .ok recordOfMadeUpShort := by
    decide +kernel
  obtain rfl := Except.ok.inj (hrecord.symm.trans hsame)
  exact ⟨record', hrecord', hnot, hrank id [rival] [] _ _ rfl rfl (by decide +kernel)⟩

end Session

end ApneaScoring
