import ApneaScoring.Proofs.Coercion
import ApneaScoring.Proofs.Fairness
import ApneaScoring.Proofs.Number.Whole
import ApneaScoring.Proofs.Session

/-! A judge's seconds and those that a static attempt falls short by are whole numbers. What the
rules of AIDA deduct for them is the whole number of fives begun, as if the factor were a fifth
and no product were rounded. -/

namespace ApneaScoring

namespace Binary64

/-- As for `ofInteger`, the body is opened before it is given the integer. -/
theorem ofInt?_eq (i : Int) :
    ofInt? i = if (ofInt i).isFinite then some (ofInt i) else none := by
  have hopen : ofInt? = ofInt? := rfl
  conv at hopen =>
    rhs
    delta ofInt?
  rw [hopen]
  delta ofInt
  dsimp only
  generalize ofRatio (decide (i < 0)) i.natAbs 1 = x
  cases x <;> rfl

end Binary64

namespace Datum

/-- The whole number that a host value is read as. -/
def StandsFor (d : Datum) (n : Nat) : Prop :=
  ∃ x, d.number? = .ok (some x) ∧ x.IsWhole n

theorem standsFor_integer {n : Nat} (hn : n ≤ 2 ^ 53) : (integer n).StandsFor n := by
  have hwhole := Binary64.isWhole_ofInt hn
  refine ⟨.ofInt n, number?_of_toNumber (by simp) ?_, hwhole⟩
  rw [toNumber, Binary64.ofInteger_eq, Binary64.ofInt?_eq, if_pos hwhole.1, Option.elim_some]

theorem StandsFor.positive {d : Datum} {n : Nat} (h : d.StandsFor n) (hpos : 0 < n) :
    ∃ x, d.positive? = .ok (some x) ∧ x.IsWhole n := by
  obtain ⟨x, hnumber, hwhole⟩ := h
  refine ⟨x, ?_, hwhole⟩
  unfold positive?
  rw [hnumber]
  change Except.ok (Option.filter _ (some x)) = _
  rw [Option.filter_some, hwhole.1, (Binary64.isWhole_zero.lt_iff hwhole).mpr hpos]
  rfl

end Datum

theorem Calculation.run_of_evaluate {c : Calculation} {vars : Variables}
    {result : Option Binary64} (h : c.evaluate vars = .ok result) : c.run vars = .ok result := by
  unfold run
  rw [h]

/-- The penalization takes a whole number from a component, and touches no other. -/
def Penalization.Deducts (p : Penalization) (c : Component) (n : Nat) : Prop :=
  ∃ x, p.delta = .only c (some x) ∧ x.IsWhole n

theorem Entry.build_eq_ok {e : Entry} {calculation : Calculation} {given : Datum}
    {realized : Performance} {input delta : Option Binary64}
    (hcalculation : e.calculation = some calculation) (hinput : e.ruleInput given = .ok input)
    (hrun : calculation.run { input, realized } = .ok delta) (c : Component) :
    e.build given realized (some c) = .ok (e.penalization input (.only c delta)) := by
  unfold build
  rw [hcalculation]
  dsimp only
  rw [hinput]
  change (calculation.run { input, realized } >>= _) = _
  rw [hrun]
  rfl

theorem Rule.entry_of_mem {r : Rule} {e : Entry} (he : e ∈ r.penalizations) :
    r.entry (.text e.id) = .ok e := by
  unfold entry entry?
  cases hfind : r.penalizations.find? fun e' => Datum.text e'.id == .text e.id with
  | none => exact absurd (beq_self_eq_true _) (List.find?_eq_none.mp hfind e he)
  | some found =>
      have hsame := List.find?_some hfind
      have hid : found.id = e.id := Datum.text.inj (beq_iff_eq.mp hsame)
      rw [List.inj_on_of_nodup_map r.ids_nodup (List.mem_of_find?_eq_some hfind) he hid]

namespace Federations

open Binary64

theorem isWhole_ofInt_ceiling {x : Binary64} {n : Nat} (hx : x.IsWhole n) (hpos : 0 < n)
    (hlt : n < 10 ^ 11) : (ofInt (fifth * x).ceilingInt).IsWhole (n ⌈/⌉ 5) := by
  rw [ceilingInt_fifth_mul hx hpos hlt]
  apply isWhole_ofInt
  rw [Nat.ceilDiv_eq_add_pred_div]
  omega

theorem evaluate_onePerFiveSeconds {vars : Variables} {x : Binary64}
    (hinput : vars.input = some x) (hx : x.IsMeasure) :
    onePerFiveSeconds.evaluate vars = .ok (some (ofInt (fifth * x).ceilingInt)) := by
  have hvariable : input.evaluate vars = .ok (some x) := by
    rw [← hinput]
    rfl
  exact Calculation.evaluate_ceiling (hx.mul (isFraction_tenths (.inl rfl))).1
    (evaluate_times_tenths hvariable)

theorem run_onePerFiveSeconds {vars : Variables} {x : Binary64} {n : Nat}
    (hinput : vars.input = some x) (hx : x.IsWhole n) (hpos : 0 < n) (hlt : n < 10 ^ 11) :
    ∃ y, onePerFiveSeconds.run vars = .ok (some y) ∧ y.IsWhole (n ⌈/⌉ 5) := by
  refine ⟨_, ?_, isWhole_ofInt_ceiling hx hpos hlt⟩
  exact Calculation.run_of_evaluate (evaluate_onePerFiveSeconds hinput hx.isMeasure)

/-- An entry for seconds deducts the fives begun in a judge's input. -/
theorem build_timed (id reason shortReason label : String) {given : Datum} {n : Nat}
    (hgiven : given.StandsFor n) (hpos : 0 < n) (hlt : n < 10 ^ 11) (realized : Performance)
    (c : Component) :
    ∃ p, (timed id reason shortReason label).build given realized (some c) = .ok p ∧
      p.id = id ∧ p.Deducts c (n ⌈/⌉ 5) := by
  obtain ⟨x, hpositive, hwhole⟩ := hgiven.positive hpos
  have hvars : ({ input := some x, realized := realized } : Variables).input = some x := rfl
  obtain ⟨y, hrun, hy⟩ := run_onePerFiveSeconds hvars hwhole hpos hlt
  have hinput : (timed id reason shortReason label).ruleInput given = .ok (some x) := by
    change (Entry.acceptInput _ given).map some = _
    unfold Entry.acceptInput
    rw [hpositive]
    rfl
  exact ⟨_, Entry.build_eq_ok rfl hinput hrun c, rfl, y, rfl, hy⟩

namespace Aida

def rules : List Rule := [sta, dyn, cwt]

theorem mem_penalizations_of_starts {r : Rule} (hr : r ∈ rules) {e : Entry}
    (he : e ∈ starts) : e ∈ r.penalizations := by
  simp only [rules, List.mem_cons, List.not_mem_nil, or_false] at hr
  rcases hr with rfl | rfl | rfl
  · exact List.mem_append_left _ he
  · exact List.mem_append_left _ (List.mem_append_left _ (List.mem_append_left _ he))
  · exact List.mem_append_left _ (List.mem_append_left _ (List.mem_append_left _ he))

theorem target_of_rules {r : Rule} (hr : r ∈ rules) : r.target = some .points := by
  simp only [rules, List.mem_cons, List.not_mem_nil, or_false] at hr
  rcases hr with rfl | rfl | rfl
  · rfl
  · rfl
  · rfl

theorem penalize_start {r : Rule} (hr : r ∈ rules) {e : Entry} (he : e ∈ starts)
    {given : Datum} {n : Nat} (hgiven : given.StandsFor n) (hpos : 0 < n) (hlt : n < 10 ^ 11)
    (realized : Performance) :
    ∃ p, r.penalize (.text e.id) given realized = .ok p ∧ p.id = e.id ∧
      p.Deducts .points (n ⌈/⌉ 5) := by
  have hbuild : ∃ p, e.build given realized (some .points) = .ok p ∧ p.id = e.id ∧
      p.Deducts .points (n ⌈/⌉ 5) := by
    simp only [starts, List.mem_cons, List.not_mem_nil, or_false] at he
    rcases he with rfl | rfl
    · exact build_timed _ _ _ _ hgiven hpos hlt realized .points
    · exact build_timed _ _ _ _ hgiven hpos hlt realized .points
  obtain ⟨p, hp, hdeducts⟩ := hbuild
  refine ⟨p, ?_, hdeducts⟩
  unfold Rule.penalize
  rw [Rule.entry_of_mem (mem_penalizations_of_starts hr he), target_of_rules hr]
  exact hp

theorem short?_sta {announced realized : Performance} {a b : Binary64} {m n : Nat}
    (ha : announced.get .duration = some a) (hb : realized.get .duration = some b)
    (hm : a.IsWhole m) (hn : b.IsWhole n) (hshort : n < m) (hlt : m < 10 ^ 11) :
    ∃ p, sta.short? announced realized = .ok (some p) ∧ p.id = Penalization.shortId ∧
      p.Deducts .points ((m - n) ⌈/⌉ 5) := by
  have heq := sta_scoresBy.short?_eq (hm.isMeasure.forall_mem ha) (hn.isMeasure.forall_mem hb)
  rw [ha, hb] at heq
  have hle : ¬(orZero (some a)).le (orZero (some b)) = true := by
    rw [not_le_iff_lt hm.orZero.isMeasure.ne_nan hn.orZero.isMeasure.ne_nan]
    exact (hn.orZero.lt_iff hm.orZero).mpr hshort
  have hdifference := hm.orZero.sub hn.orZero (by omega) (by omega)
  have hcharge := isWhole_ofInt_ceiling hdifference (by omega) (by omega)
  dsimp only at heq
  rw [if_neg hle, begunScale_charge] at heq
  exact ⟨_, heq, rfl, _, rfl, hcharge⟩

end Aida

end Federations

namespace Session

/-- The rules of AIDA charge one point for every five seconds begun, be they the seconds of a
start or, in a static attempt, those that are missing. -/
theorem startedSeconds_charged (session : Session) :
    (∀ n : Nat, 0 < n → n < 10 ^ 11 → (Datum.integer n).StandsFor n ∧
      ∀ r ∈ Federations.Aida.rules, ∀ id ∈ ["EarlyStart", "LateStart"],
        ∀ given : Datum, given.StandsFor n → ∀ realized, ∃ p,
          (session.run (penalize (.definition r) (.text id) given realized)).1 = .ok p ∧
          p.id = id ∧ p.Deducts .points (n ⌈/⌉ 5)) ∧
    (∀ m n : Nat, n < m → m < 10 ^ 11 → ∀ (announced realized : Performance) (a b : Binary64),
      announced.get .duration = some a → realized.get .duration = some b →
      a.IsWhole m → b.IsWhole n → ∃ p,
        (session.run (short (.definition Federations.Aida.sta) announced realized)).1 =
          .ok (some p) ∧
        p.id = "Short" ∧ p.Deducts .points ((m - n) ⌈/⌉ 5)) := by
  constructor
  · intro n hpos hlt
    refine ⟨Datum.standsFor_integer (by omega), ?_⟩
    intro r hr id hid given hgiven realized
    obtain ⟨e, he, rfl⟩ : ∃ e ∈ Federations.Aida.starts, e.id = id :=
      List.mem_map.mp (show id ∈ Federations.Aida.starts.map (·.id) from hid)
    obtain ⟨p, hp, hdeducts⟩ :=
      Federations.Aida.penalize_start hr he hgiven hpos hlt realized
    refine ⟨p, ?_, hdeducts⟩
    rw [run_penalize, hp]
    rfl
  · intro m n hshort hlt announced realized a b ha hb hm hn
    obtain ⟨p, hp, hdeducts⟩ := Federations.Aida.short?_sta ha hb hm hn hshort hlt
    refine ⟨p, ?_, hdeducts⟩
    rw [run_short, hp]
    rfl

/-- The factor is a little more than a fifth, and fifteen seconds are three points all the
same. -/
theorem startedSeconds_charged_fifteen :
    (∃ p, (run {} (penalize (.definition Federations.Aida.dyn) (.text "LateStart")
        (.integer 15) {})).1 = .ok p ∧ p.id = "LateStart" ∧ p.Deducts .points 3) ∧
    (∃ p, (run {} (short (.definition Federations.Aida.sta)
        { duration := some (.ofInt 120) } { duration := some (.ofInt 105) })).1 =
          .ok (some p) ∧ p.id = "Short" ∧ p.Deducts .points 3) := by
  obtain ⟨hstarts, hshort⟩ := startedSeconds_charged {}
  have hceil : 15 ⌈/⌉ 5 = 3 := by decide
  constructor
  · obtain ⟨hgiven, hcharged⟩ := hstarts 15 (by decide) (by decide)
    rw [hceil] at hcharged
    exact hcharged Federations.Aida.dyn (by simp [Federations.Aida.rules]) "LateStart"
      (by decide) _ hgiven {}
  · have hcharged := hshort 120 105 (by decide) (by decide)
      { duration := some (.ofInt 120) } { duration := some (.ofInt 105) } _ _ rfl rfl
      (Binary64.isWhole_ofInt (by decide)) (Binary64.isWhole_ofInt (by decide))
    rw [hceil] at hcharged
    exact hcharged

end Session

end ApneaScoring
