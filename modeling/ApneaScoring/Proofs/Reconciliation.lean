import ApneaScoring.Proofs.Number.Order
import ApneaScoring.Reconciliation

namespace ApneaScoring

namespace Card

theorem absent_combine (card : Card) : absent.combine card = card := by
  cases card <;> rfl

theorem severity_le_red (card : Card) : card.severity ≤ red.severity := by
  cases card <;> decide

theorem combine_mem (a b : Card) : a.combine b = a ∨ a.combine b = b := by
  unfold combine
  split
  · exact .inl rfl
  · exact .inr rfl

theorem foldl_combine_mem (cards : List Card) (first : Card) :
    cards.foldl combine first ∈ first :: cards := by
  induction cards generalizing first with
  | nil => exact List.mem_cons_self
  | cons card cards ih =>
      rcases List.mem_cons.mp (ih (first.combine card)) with hfirst | hrest
      · rw [List.foldl_cons, hfirst]
        rcases combine_mem first card with h | h
        · rw [h]
          exact List.mem_cons_self
        · rw [h]
          exact List.mem_cons_of_mem first List.mem_cons_self
      · exact List.mem_cons_of_mem first (List.mem_cons_of_mem card hrest)

theorem severity_le_foldl_combine (cards : List Card) (first : Card) :
    ∀ card ∈ first :: cards, card.severity ≤ (cards.foldl combine first).severity := by
  induction cards generalizing first with
  | nil =>
      intro card hcard
      rw [List.mem_singleton.mp hcard]
      exact Nat.le_refl _
  | cons card cards ih =>
      have hcombined := ih (first.combine card) _ List.mem_cons_self
      rw [severity_combine] at hcombined
      intro other hother
      rw [List.foldl_cons]
      rcases List.mem_cons.mp hother with rfl | hother
      · exact Nat.le_trans (Nat.le_max_left _ _) hcombined
      · rcases List.mem_cons.mp hother with rfl | hother
        · exact Nat.le_trans (Nat.le_max_right _ _) hcombined
        · exact ih _ other (List.mem_cons_of_mem _ hother)

end Card

theorem penalizationsCard_eq (penalizations : List Penalization) (judge : Card) :
    penalizationsCard penalizations judge =
      (penalizations.map (·.card)).foldl Card.combine judge := by
  unfold penalizationsCard Card.combineAll
  rw [List.foldl_cons, Card.absent_combine]

theorem penalizationsCard_mem (penalizations : List Penalization) (judge : Card) :
    penalizationsCard penalizations judge ∈ judge :: penalizations.map (·.card) := by
  rw [penalizationsCard_eq]
  exact Card.foldl_combine_mem _ _

theorem severity_le_penalizationsCard (penalizations : List Penalization) (judge : Card) :
    ∀ card ∈ judge :: penalizations.map (·.card),
      card.severity ≤ (penalizationsCard penalizations judge).severity := by
  rw [penalizationsCard_eq]
  exact Card.severity_le_foldl_combine _ _

theorem penalizationsCard_eq_red_iff {penalizations : List Penalization} {judge : Card} :
    penalizationsCard penalizations judge = .red ↔
      Card.red ∈ judge :: penalizations.map (·.card) := by
  constructor
  · intro h
    rw [← h]
    exact penalizationsCard_mem _ _
  · intro h
    have hle := severity_le_penalizationsCard _ _ _ h
    apply Card.severity_injective
    exact Nat.le_antisymm (Card.severity_le_red _) hle

theorem deduction_append (ps qs : List Penalization) (c : Component) :
    deduction (ps ++ qs) c =
      (qs.map fun p => Binary64.orZero (p.delta.get c)).foldl (· + ·) (deduction ps c) := by
  unfold deduction
  rw [List.map_append, List.foldl_append]

theorem deduction_eq_foldl (ps : List Penalization) (c : Component) :
    deduction ps c = (ps.filterMap (·.delta.get c)).foldl (· + ·) .zero := by
  have hfold : ∀ start : Binary64, start.IsPlain →
      (ps.map fun p => Binary64.orZero (p.delta.get c)).foldl (· + ·) start =
        (ps.filterMap (·.delta.get c)).foldl (· + ·) start := by
    induction ps with
    | nil => exact fun _ _ => rfl
    | cons p ps ih =>
        intro start hstart
        rw [List.map_cons, List.foldl_cons, ih _ (hstart.add _), List.filterMap_cons]
        cases hdelta : p.delta.get c with
        | none =>
            have habsent : start + Binary64.orZero none = start := hstart.add_of_isZero rfl
            rw [habsent]
        | some d =>
            have hpresent : start + Binary64.orZero (some d) = start + d := by
              unfold Binary64.orZero
              dsimp only
              split
              · next hzero => rw [hstart.add_of_isZero rfl, hstart.add_of_isZero hzero]
              · rfl
            rw [hpresent, List.foldl_cons]
  exact hfold .zero Binary64.isPlain_zero

namespace Binary64

theorem foldl_add_le {others : List Binary64} (hothers : ∀ d ∈ others, d.isFinite = true)
    {x y : Binary64} (hxy : x.le y = true) :
    (others.foldl (· + ·) x).le (others.foldl (· + ·) y) = true := by
  induction others generalizing x y with
  | nil => exact hxy
  | cons d others ih =>
      have hd := hothers d List.mem_cons_self
      apply ih (fun e he => hothers e (List.mem_cons_of_mem d he))
      exact add_le_add hxy (le_refl (ne_nan_of_isFinite hd)) hd hd

theorem floored_le {x y : Binary64} (hxy : x.le y = true) :
    x.floored.le y.floored = true := by
  unfold floored
  by_cases hx : zero.lt x = true
  · have hy : zero.lt y = true := by
      rw [lt_iff] at hx ⊢
      rw [le_iff] at hxy
      exact ⟨zero_ne_nan, hxy.2.1, Int.lt_of_lt_of_le hx.2.2 hxy.2.2⟩
    rw [if_pos hx, if_pos hy]
    exact hxy
  · rw [if_neg hx]
    by_cases hy : zero.lt y = true
    · rw [if_pos hy]
      exact le_of_lt hy
    · rw [if_neg hy]
      exact le_refl zero_ne_nan

theorem foldl_add_ne_nan {others : List Binary64} (hothers : ∀ d ∈ others, d.isFinite = true)
    {x : Binary64} (hx : x ≠ nan) : others.foldl (· + ·) x ≠ nan :=
  (le_iff.mp (foldl_add_le hothers (le_refl hx))).1

theorem zero_le_floored (x : Binary64) : zero.le x.floored = true := by
  unfold floored
  split
  · next hpos => exact le_of_lt hpos
  · exact le_refl zero_ne_nan

theorem floored_ne_nan (x : Binary64) : x.floored ≠ nan :=
  (le_iff.mp (zero_le_floored x)).2.1

theorem negative_floored (x : Binary64) : x.floored.negative = false := by
  unfold floored
  split
  · next hpos =>
      obtain ⟨-, -, hlt⟩ := lt_iff.mp hpos
      rw [place_zero] at hlt
      cases hsign : x.negative with
      | false => rfl
      | true =>
          have hzero := natAbs_place_eq_zero hsign (Int.le_of_lt hlt)
          omega
  · rfl

structure IsMax (a b greater : Binary64) : Prop where
  left_le : a.le greater = true
  right_le : b.le greater = true
  mem : greater = a ∨ greater = b

theorem floored_isMax {x : Binary64} (hx : x ≠ nan) : IsMax zero x x.floored := by
  unfold floored
  by_cases hpos : zero.lt x = true
  · rw [if_pos hpos]
    exact ⟨le_of_lt hpos, le_refl hx, .inr rfl⟩
  · rw [if_neg hpos]
    refine ⟨le_refl zero_ne_nan, ?_, .inl rfl⟩
    by_contra hnot
    exact hpos ((not_le_iff_lt hx zero_ne_nan).mp hnot)

end Binary64

/-- Whether a component is kept: where no rule is given, each is. -/
def Rule.keeps (rule : Option Rule) (c : Component) : Bool :=
  rule.all (·.measures c)

variable {realized : Performance} {ps : List Penalization} {card : Card}
  {target : Option Component} {measured : Component → Bool} {c : Component} {v : Binary64}

theorem isSome_finalComponent :
    (finalComponent realized ps card target measured c).isSome = true ↔
      (realized.get c).isSome = true ∧ measured c = true := by
  unfold finalComponent
  cases measured c with
  | true => simp
  | false => simp

theorem mem_finalComponent (h : v ∈ finalComponent realized ps card target measured c) :
    ∃ x ∈ realized.get c, v =
      if target = some c ∧ card = .red then .zero else (x - deduction ps c).floored := by
  unfold finalComponent at h
  split at h
  · obtain ⟨x, hx, rfl⟩ := Option.map_eq_some_iff.mp h
    exact ⟨x, hx, rfl⟩
  · cases h

theorem ne_nan_of_mem_finalComponent
    (h : v ∈ finalComponent realized ps card target measured c) :
    v ≠ .nan ∧ v.negative = false := by
  obtain ⟨x, -, rfl⟩ := mem_finalComponent h
  split
  · exact ⟨Binary64.zero_ne_nan, rfl⟩
  · exact ⟨Binary64.floored_ne_nan _, Binary64.negative_floored _⟩

theorem isMax_of_mem_finalComponent
    (h : v ∈ finalComponent realized ps card target measured c)
    (hcard : ¬ (target = some c ∧ card = .red)) {x : Binary64} (hx : x ∈ realized.get c)
    (hfinite : x.isFinite = true) (hdeltas : ∀ p ∈ ps, ∀ d ∈ p.delta.get c, d.isFinite = true) :
    Binary64.IsMax .zero (x - (ps.filterMap (·.delta.get c)).foldl (· + ·) .zero) v := by
  obtain ⟨y, hy, rfl⟩ := mem_finalComponent h
  obtain rfl := Option.mem_unique hx hy
  have hsum : (ps.filterMap (·.delta.get c)).foldl (· + ·) .zero ≠ .nan := by
    apply Binary64.foldl_add_ne_nan _ Binary64.zero_ne_nan
    intro d hd
    obtain ⟨p, hp, hpd⟩ := List.mem_filterMap.mp hd
    exact hdeltas p hp d hpd
  rw [if_neg hcard, deduction_eq_foldl]
  exact Binary64.floored_isMax (Binary64.sub_ne_nan hfinite hsum)

/-- Each component is reconciled by itself: one that was realized and is measured is left
with what the deltas on it leave, never below zero, and with nothing under a red card. -/
theorem get_finalPerformance (realized : Performance) (ps : List Penalization) (card : Card)
    (target : Option Component) (rule : Option Rule) (c : Component) :
    let final := (finalPerformance realized ps card target (Rule.keeps rule)).get c
    (final.isSome = true ↔
      (realized.get c).isSome = true ∧ ∀ r ∈ rule, r.measures c = true) ∧
    (∀ v ∈ final, v ≠ .nan ∧ v.negative = false) ∧
    (∀ v ∈ final, target = some c → card = .red → v = .zero) ∧
    (∀ v ∈ final, ¬ (target = some c ∧ card = .red) → ∀ x ∈ realized.get c,
      x.isFinite = true → (∀ p ∈ ps, ∀ d ∈ p.delta.get c, d.isFinite = true) →
      Binary64.IsMax .zero (x - (ps.filterMap (·.delta.get c)).foldl (· + ·) .zero) v) ∧
    ∀ (realized' : Performance) (ps' : List Penalization),
      realized'.get c = realized.get c →
      ps'.map (·.delta.get c) = ps.map (·.delta.get c) →
      (finalPerformance realized' ps' card target (Rule.keeps rule)).get c = final := by
  unfold finalPerformance
  simp only [Performance.get_ofComponents]
  refine ⟨?_, fun v => ne_nan_of_mem_finalComponent, ?_,
    fun v hv hcard x => isMax_of_mem_finalComponent hv hcard, ?_⟩
  · rw [isSome_finalComponent]
    cases rule with
    | none => simp [Rule.keeps]
    | some r => simp [Rule.keeps]
  · intro v hv htarget hcard
    obtain ⟨x, -, rfl⟩ := mem_finalComponent hv
    exact if_pos ⟨htarget, hcard⟩
  · intro realized' ps' hrealized hdeltas
    have hdeduction : deduction ps' c = deduction ps c := by
      unfold deduction
      rw [← Function.comp_def, ← List.map_map, hdeltas, List.map_map]
    unfold finalComponent
    rw [hrealized, hdeduction]

example : finalComponent { depth := some (.ofDecimal false 60 0) }
    [{ id := "Grab", reason := "", shortReason := "", delta := { depth := some .nan } }] .white
    (some .depth) (fun _ => true) .depth = some .zero := by decide +kernel

end ApneaScoring
