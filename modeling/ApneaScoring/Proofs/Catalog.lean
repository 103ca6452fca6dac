import ApneaScoring.Proofs.StartedSeconds

namespace ApneaScoring

namespace Entry

/-- Whether a judge's input is taken. An entry that declares none takes any, as it does not
look at it. -/
def Accepts (e : Entry) (given : Datum) : Prop :=
  e.hasInput = true → ∃ x, given.Denotes x ∧ x.isFinite = true ∧ Binary64.zero.lt x = true

/-- Whether the calculation, if there is one, has an outcome for an input that is taken. -/
def Evaluates (e : Entry) (given : Datum) (realized : Performance) : Prop :=
  ∀ calculation ∈ e.calculation, ∀ input, e.ruleInput given = .ok input →
    ∃ delta, calculation.evaluate { input, realized } = .ok delta

/-- What an entry makes of a judge's input and a realized performance. -/
structure Yields (e : Entry) (given : Datum) (realized : Performance) (target : Component)
    (p : Penalization) : Prop where
  id : p.id = e.id
  reason : p.reason = e.reason
  shortReason : p.shortReason = e.shortReason
  card : p.card = e.card
  isShort : p.isShort = false
  isSome_ruleInput : p.ruleInput.isSome = e.hasInput
  ruleInput : ∀ x ∈ p.ruleInput, given.Denotes x
  absent : ∀ c, c ≠ target → p.delta.get c = none
  cardOnly : e.isCardOnly = true → p.delta = .empty
  deduction : ∀ calculation ∈ e.calculation,
    calculation.evaluate { input := p.ruleInput, realized } = .ok (p.delta.get target)

variable {e : Entry} {given : Datum} {realized : Performance} {target : Component}
  {x : Binary64}

theorem ruleInput_of_fixed (h : e.hasInput = false) (given : Datum) :
    e.ruleInput given = .ok none := by
  unfold ruleInput
  rw [h]
  rfl

theorem ruleInput_of_positive (h : e.hasInput = true) (hx : given.positive? = .ok (some x)) :
    e.ruleInput given = .ok (some x) := by
  unfold ruleInput acceptInput
  rw [if_pos h, hx]
  rfl

theorem ruleInput_of_not_accepts (hgiven : ¬ given.IsTooLarge) (h : ¬ e.Accepts given) :
    e.hasInput = true ∧ e.ruleInput given =
      .error (given.refusal (.invalidInput e.id given e.inputName) .undisplayable) := by
  unfold Accepts at h
  push Not at h
  obtain ⟨hinput, hnone⟩ := h
  refine ⟨hinput, ?_⟩
  obtain ⟨input, hread⟩ := (Datum.exists_ok_iff fun _ => Datum.positive?_eq_error_iff).mpr hgiven
  unfold ruleInput acceptInput
  rw [if_pos hinput, hread]
  cases input with
  | none => rfl
  | some x =>
      obtain ⟨hx, hfinite, hpositive⟩ := Datum.positive?_eq_some_iff.mp hread
      exact absurd hpositive (hnone x hx hfinite)

theorem not_accepts (hinput : e.hasInput = true) (h : ∀ x, ¬ given.Denotes x) :
    ¬ e.Accepts given := by
  intro haccepts
  obtain ⟨x, hx, -⟩ := haccepts hinput
  exact h x hx

theorem exists_of_ruleInput (h : e.hasInput = true) {input : Option Binary64}
    (hread : e.ruleInput given = .ok input) :
    ∃ x, input = some x ∧ x.IsMeasure ∧ Binary64.zero.lt x = true := by
  unfold ruleInput acceptInput at hread
  rw [if_pos h] at hread
  cases hpositive : given.positive? with
  | error _ =>
      rw [hpositive] at hread
      cases hread
  | ok taken =>
      rw [hpositive] at hread
      cases taken with
      | none => cases hread
      | some x =>
          obtain ⟨-, hfinite, hlt⟩ := Datum.positive?_eq_some_iff.mp hpositive
          exact ⟨x, (Except.ok.inj hread).symm, ⟨hfinite, Binary64.le_of_lt hlt⟩, hlt⟩

theorem exists_ruleInput (h : e.Accepts given) : ∃ input, e.ruleInput given = .ok input ∧
    input.isSome = e.hasInput ∧ ∀ x ∈ input, given.Denotes x := by
  cases hinput : e.hasInput with
  | false =>
      refine ⟨none, ruleInput_of_fixed hinput given, rfl, ?_⟩
      intro x hx
      cases hx
  | true =>
      obtain ⟨x, hx, hkept⟩ := h hinput
      have hpositive := Datum.positive?_eq_some_iff.mpr ⟨hx, hkept⟩
      refine ⟨some x, ruleInput_of_positive hinput hpositive, rfl, ?_⟩
      rintro y ⟨⟩
      exact hx

theorem hasInput_of_calculation_eq_none (h : e.calculation = none) : e.hasInput = false := by
  cases hinput : e.hasInput with
  | false => rfl
  | true =>
      have hcalculated := e.calculated hinput
      rw [h] at hcalculated
      cases hcalculated

theorem exists_build (haccepts : e.Accepts given) (hevaluates : e.Evaluates given realized)
    (target : Component) :
    ∃ p, e.build given realized (some target) = .ok p ∧ e.Yields given realized target p := by
  cases hcalculation : e.calculation with
  | none =>
      have hinput := hasInput_of_calculation_eq_none hcalculation
      refine ⟨e.penalization none .empty, ?_, rfl, rfl, rfl, rfl, rfl, hinput.symm, ?_, ?_,
        fun _ => rfl, ?_⟩
      · unfold build
        rw [hcalculation]
      · intro x hx
        cases hx
      · intro c _
        exact Performance.get_empty c
      · rw [hcalculation]
        nofun
  | some calculation =>
      obtain ⟨input, hread, hsome, hdenotes⟩ := exists_ruleInput haccepts
      obtain ⟨delta, hdelta⟩ := hevaluates calculation hcalculation input hread
      have hbuild := build_eq_ok hcalculation hread (Calculation.run_of_evaluate hdelta) target
      refine ⟨_, hbuild, rfl, rfl, rfl, rfl, rfl, hsome, hdenotes, ?_, ?_, ?_⟩
      · intro c hc
        exact Performance.get_only_of_ne delta hc
      · unfold isCardOnly
        rw [hcalculation]
        nofun
      · rw [hcalculation]
        rintro _ ⟨⟩
        exact hdelta.trans (congrArg Except.ok (Performance.get_only_self target delta).symm)

theorem build_of_not_accepts (hgiven : ¬ given.IsTooLarge) (h : ¬ e.Accepts given)
    (realized : Performance) (target : Option Component) :
    e.build given realized target =
      .error (given.refusal (.invalidInput e.id given e.inputName) .undisplayable) := by
  obtain ⟨hinput, hrefused⟩ := ruleInput_of_not_accepts hgiven h
  obtain ⟨calculation, hcalculation⟩ := Option.isSome_iff_exists.mp (e.calculated hinput)
  unfold build
  rw [hcalculation]
  dsimp only
  rw [hrefused]
  rfl

theorem build_congr (h : e.hasInput = false) (given given' : Datum) (realized : Performance)
    (target : Option Component) :
    e.build given realized target = e.build given' realized target := by
  unfold build
  rw [ruleInput_of_fixed h given, ruleInput_of_fixed h given']

end Entry

namespace Rule

variable {r : Rule} {id : Datum} {e : Entry}

theorem penalize_of_mem (he : e ∈ r.penalizations) (hid : .text e.id = id) (given : Datum)
    (realized : Performance) :
    r.penalize id given realized = e.build given realized r.target := by
  unfold penalize
  rw [← hid, entry_of_mem he]
  rfl

theorem penalize_of_forall_ne (h : ∀ e ∈ r.penalizations, Datum.text e.id ≠ id) (given : Datum)
    (realized : Performance) :
    r.penalize id given realized =
      .error (id.refusal (.unknownPenalization id r.name r.ids) .undisplayable) := by
  have hnone : r.entry? id = none := by
    apply List.find?_eq_none.mpr
    intro e he
    simpa using h e he
  unfold penalize entry
  rw [hnone]
  rfl

theorem eq_of_id (he : e ∈ r.penalizations) {e' : Entry} (he' : e' ∈ r.penalizations)
    (h : e'.id = e.id) : e' = e :=
  List.inj_on_of_nodup_map r.ids_nodup he' he h

end Rule

namespace Federations

/-- The kinds of entries that the federations list. -/
inductive Kind : Entry → Prop
  | card {e : Entry} (h : e.calculation = none) : Kind e
  | fixed (id reason shortReason : String) {n : Nat} (hn : 0 < n) :
      Kind (fixed id reason shortReason n)
  | timed (id reason shortReason label : String) : Kind (timed id reason shortReason label)
  | counted (id reason shortReason : String) : Kind (counted id reason shortReason)

theorem kind_of_mem {r : Rule} (hr : r ∈ all) : ∀ e ∈ r.penalizations, Kind e := by
  have hnil : ∀ e ∈ ([] : List Entry), Kind e := List.forall_mem_nil _
  have hred : ∀ id reason shortReason, Kind (redCard id reason shortReason) :=
    fun _ _ _ => .card rfl
  have hmissed : Kind missedStart := .card rfl
  have hstarts : ∀ e ∈ Aida.starts, Kind e :=
    List.forall_mem_cons.mpr ⟨.timed _ _ _ _, List.forall_mem_cons.mpr ⟨.timed _ _ _ _, hnil⟩⟩
  have haida : ∀ e ∈ Aida.disqualifications, Kind e := by
    simp only [Aida.disqualifications, List.forall_mem_cons]
    exact ⟨hred _ _ _, hred _ _ _, hred _ _ _, hred _ _ _, hmissed, hnil⟩
  have hcmas : ∀ e ∈ Cmas.disqualifications, Kind e := by
    simp only [Cmas.disqualifications, List.forall_mem_cons]
    exact ⟨hred _ _ _, hred _ _ _, hmissed, hnil⟩
  simp only [all, List.mem_cons, List.not_mem_nil, or_false] at hr
  rcases hr with rfl | rfl | rfl | rfl | rfl | rfl | rfl
  · simp only [Aida.sta, Aida.fields, List.forall_mem_append]
    exact ⟨hstarts, haida⟩
  · simp only [Aida.dyn, Aida.fields, List.forall_mem_append, List.forall_mem_cons]
    exact ⟨⟨⟨hstarts, .fixed _ _ _ (by decide), .counted _ _ _, hnil⟩, haida⟩, hred _ _ _, hnil⟩
  · simp only [Aida.cwt, Aida.fields, List.forall_mem_append, List.forall_mem_cons]
    exact ⟨⟨⟨hstarts, .fixed _ _ _ (by decide), .counted _ _ _, .fixed _ _ _ (by decide), hnil⟩,
      haida⟩, hred _ _ _, hnil⟩
  · simp only [Cmas.sta, Cmas.fields, List.forall_mem_append]
    exact ⟨hcmas, hnil⟩
  · simp only [Cmas.dyn, Cmas.fields, List.forall_mem_append, List.forall_mem_cons]
    exact ⟨hcmas, .counted _ _ _, hnil⟩
  · simp only [Cmas.cwt, Cmas.fields, List.forall_mem_append, List.forall_mem_cons]
    exact ⟨hcmas, .fixed _ _ _ (by decide), .counted _ _ _, hnil⟩
  · simp only [Cmas.jb, Cmas.fields, List.forall_mem_append, List.forall_mem_cons]
    exact ⟨hcmas, hred _ _ _, hred _ _ _, .fixed _ _ _ (by decide), hnil⟩

theorem evaluate_fivePerCount {vars : Variables} {x : Binary64} (hinput : vars.input = some x) :
    fivePerCount.evaluate vars = .ok (some (.ofDecimal false 5 0 * x)) := by
  have hvariable : input.evaluate vars = .ok (some x) := by
    rw [← hinput]
    rfl
  exact Calculation.evaluate_binary (evaluate_number 5) hvariable

/-- No calculation of a listed entry fails on an input that is taken. -/
theorem Kind.evaluates {e : Entry} (h : Kind e) (given : Datum) (realized : Performance) :
    e.Evaluates given realized := by
  intro calculation hcalculation input hinput
  cases h with
  | card hnone =>
      rw [hnone] at hcalculation
      cases hcalculation
  | fixed id reason shortReason hn =>
      cases hcalculation
      exact ⟨_, evaluate_number _⟩
  | timed id reason shortReason label =>
      cases hcalculation
      obtain ⟨x, rfl, hx⟩ := Entry.exists_of_ruleInput rfl hinput
      exact ⟨_, evaluate_onePerFiveSeconds rfl hx.1⟩
  | counted id reason shortReason =>
      cases hcalculation
      obtain ⟨x, rfl, hx⟩ := Entry.exists_of_ruleInput rfl hinput
      exact ⟨_, evaluate_fivePerCount rfl⟩

theorem exists_penalize {r : Rule} (hr : r ∈ all) {target : Component}
    (htarget : r.target = some target) {e : Entry} (he : e ∈ r.penalizations) {given : Datum}
    (haccepts : e.Accepts given) (realized : Performance) :
    ∃ p, r.penalize (.text e.id) given realized = .ok p ∧ e.Yields given realized target p := by
  have hevaluates := (kind_of_mem hr e he).evaluates given realized
  rw [Rule.penalize_of_mem he rfl, htarget]
  exact Entry.exists_build haccepts hevaluates target

end Federations

namespace Session

theorem error_rule_inj {error error' : RuleError} :
    (.error (.rule error) : Except ScoringError Penalization) = .error (.rule error') ↔
      error = error' := by
  rw [Except.error.injEq, ScoringError.rule.injEq]

theorem run_penalize_unknown (session : Session) {r : Rule} {id : Datum}
    (h : ∀ e ∈ r.penalizations, Datum.text e.id ≠ id) (given : Datum)
    (realized : Performance) :
    (session.run (penalize (.definition r) id given realized)).1 =
      .error (.rule (id.refusal (.unknownPenalization id r.name r.ids) .undisplayable)) := by
  rw [run_penalize, Rule.penalize_of_forall_ne h]
  rfl

theorem run_penalize_refused (session : Session) {r : Rule} {e : Entry}
    (he : e ∈ r.penalizations) {given : Datum} (hgiven : ¬ given.IsTooLarge)
    (h : ¬ e.Accepts given) (realized : Performance) :
    (session.run (penalize (.definition r) (.text e.id) given realized)).1 =
      .error (.rule (given.refusal (.invalidInput e.id given e.inputName) .undisplayable)) := by
  rw [run_penalize, Rule.penalize_of_mem he rfl, Entry.build_of_not_accepts hgiven h]
  rfl

theorem run_penalize_accepted (session : Session) {r : Rule} {target : Component}
    (htarget : r.target = some target) {e : Entry} (he : e ∈ r.penalizations) {given : Datum}
    {realized : Performance} (hevaluates : e.Evaluates given realized) (h : e.Accepts given) :
    ∃ p, (session.run (penalize (.definition r) (.text e.id) given realized)).1 = .ok p ∧
      e.Yields given realized target p := by
  obtain ⟨p, hp, hyields⟩ := Entry.exists_build h hevaluates target
  refine ⟨p, ?_, hyields⟩
  rw [run_penalize, Rule.penalize_of_mem he rfl, htarget, hp]
  rfl

/-- What building a penalization from the catalog comes to. An id that no entry has and an input
that its entry does not take are refused as such just if they can be displayed. -/
theorem penalize_outcome (session : Session) {r : Rule} {target : Component}
    (htarget : r.target = some target) (id : Datum) {given : Datum}
    (hgiven : ¬ given.IsTooLarge) {realized : Performance}
    (hevaluates : ∀ e ∈ r.penalizations, e.Evaluates given realized) :
    let built (given : Datum) :=
      (session.run (penalize (.definition r) id given realized)).1
    (built given = .error (.rule (.unknownPenalization id r.name r.ids)) ↔
      (∀ e ∈ r.penalizations, Datum.text e.id ≠ id) ∧ id.isDisplayable = true) ∧
    (built given = .error (.rule .undisplayable) ↔
      ((∀ e ∈ r.penalizations, Datum.text e.id ≠ id) ∧ id.isDisplayable = false) ∨
      ∃ e ∈ r.penalizations, Datum.text e.id = id ∧ ¬ e.Accepts given ∧
        given.isDisplayable = false) ∧
    ∀ e ∈ r.penalizations, Datum.text e.id = id →
      (∀ e' ∈ r.penalizations, Datum.text e'.id = id → e' = e) ∧
      (built given = .error (.rule (.invalidInput e.id given e.inputName)) ↔
        ¬ e.Accepts given ∧ given.isDisplayable = true) ∧
      (e.Accepts given → ∃ p, built given = .ok p ∧ e.Yields given realized target p) ∧
      (e.hasInput = false → ∀ other, built other = built given) := by
  intro built
  by_cases hnone : ∀ e ∈ r.penalizations, Datum.text e.id ≠ id
  · have hrefused : built given = _ := session.run_penalize_unknown hnone given realized
    have hunknown : RuleError.unknownPenalization id r.name r.ids ≠ .undisplayable := nofun
    have hlacks : ¬ ∃ e ∈ r.penalizations, Datum.text e.id = id ∧ ¬ e.Accepts given ∧
        given.isDisplayable = false := fun ⟨e, he, hid, _⟩ => hnone e he hid
    refine ⟨?_, ?_, fun e he hid => absurd hid (hnone e he)⟩
    · rw [hrefused, error_rule_inj, Datum.refusal_eq_error hunknown, and_iff_right hnone]
    · rw [hrefused, error_rule_inj, Datum.refusal_eq_undisplayable hunknown,
        and_iff_right hnone, or_iff_left hlacks]
  · have hsome := hnone
    push Not at hsome
    obtain ⟨e, he, rfl⟩ := hsome
    have hunique : ∀ e' ∈ r.penalizations, Datum.text e'.id = .text e.id → e' = e :=
      fun e' he' hid' => Rule.eq_of_id he he' (Datum.text.inj hid')
    have hexists : (∃ e' ∈ r.penalizations, Datum.text e'.id = .text e.id ∧
        ¬ e'.Accepts given ∧ given.isDisplayable = false) ↔
          ¬ e.Accepts given ∧ given.isDisplayable = false :=
      ⟨fun ⟨e', he', hid', h⟩ => hunique e' he' hid' ▸ h, fun h => ⟨e, he, rfl, h⟩⟩
    have hfixed (hinput : e.hasInput = false) (other : Datum) : built other = built given := by
      simp only [built, run_penalize, Rule.penalize_of_mem he rfl,
        Entry.build_congr hinput other given]
    -- The entry with the id is `e` alone, so what is said of an entry is said of `e`.
    simp only [hnone, false_and, false_or, hexists, iff_false]
    by_cases haccepts : e.Accepts given
    · obtain ⟨p, hp, hyields⟩ :=
        session.run_penalize_accepted htarget he (hevaluates e he) haccepts
      have hbuilt : built given = .ok p := hp
      refine ⟨?_, ?_, fun e' he' hid' => ?_⟩
      · simp [hbuilt]
      · simp [hbuilt, haccepts]
      · obtain rfl := hunique e' he' hid'
        refine ⟨hunique, ?_, fun _ => ⟨p, hbuilt, hyields⟩, hfixed⟩
        simp [hbuilt, haccepts]
    · have hrefused : built given = _ := session.run_penalize_refused he hgiven haccepts realized
      have hinvalid : RuleError.invalidInput e.id given e.inputName ≠ .undisplayable := nofun
      refine ⟨?_, ?_, fun e' he' hid' => ?_⟩
      · rw [hrefused, error_rule_inj]
        exact Datum.refusal_ne nofun nofun
      · rw [hrefused, error_rule_inj, Datum.refusal_eq_undisplayable hinvalid,
          and_iff_right haccepts]
      · obtain rfl := hunique e' he' hid'
        refine ⟨hunique, ?_, fun h => absurd h haccepts, hfixed⟩
        rw [hrefused, error_rule_inj, Datum.refusal_eq_error hinvalid, and_iff_right haccepts]

theorem denotes_two : (Datum.text "2").Denotes (.ofDecimal false 2 0) ∧
    (Binary64.ofDecimal false 2 0).isFinite = true ∧
    Binary64.zero.lt (.ofDecimal false 2 0) = true := by
  have hread : Binary64.ofText? "2" = some (.ofDecimal false 2 0) ∧
      (Binary64.ofDecimal false 2 0).isFinite = true ∧
      Binary64.zero.lt (.ofDecimal false 2 0) = true := by decide +kernel
  exact ⟨.text hread.1, hread.2⟩

/-- Two grabs may be given as text, and a truth value is no number of grabs. -/
theorem penalize_outcome_grab :
    (∃ p, (run {} (penalize (.definition Federations.Cmas.cwt) (.text "Grab") (.text "2") {})).1 =
        .ok p ∧ Federations.Cmas.grab.Yields (.text "2") {} .depth p) ∧
    (run {} (penalize (.definition Federations.Cmas.cwt) (.text "Grab") (.bool true) {})).1 =
      .error (.rule (.invalidInput "Grab" (.bool true) (some "Count"))) := by
  have hcwt : Federations.Cmas.cwt ∈ Federations.all := by simp [Federations.all]
  have hgrab : Federations.Cmas.grab ∈ Federations.Cmas.cwt.penalizations := by
    simp [Federations.Cmas.cwt, Federations.Cmas.fields]
  have hevaluates : ∀ given, ∀ e ∈ Federations.Cmas.cwt.penalizations,
      e.Evaluates given Performance.empty := fun given e he =>
    (Federations.kind_of_mem hcwt e he).evaluates given .empty
  constructor
  · obtain ⟨-, -, hbuilt⟩ :=
      penalize_outcome {} rfl (.text "Grab") denotes_two.1.not_isTooLarge (hevaluates (.text "2"))
    exact (hbuilt _ hgrab rfl).2.2.1 fun _ => ⟨_, denotes_two⟩
  · have hnot : ¬ Federations.Cmas.grab.Accepts (.bool true) := by
      apply Entry.not_accepts rfl
      intro x hx
      cases hx
    have hsmall : ¬ (Datum.bool true).IsTooLarge := by simp [Datum.IsTooLarge]
    obtain ⟨-, -, hbuilt⟩ := penalize_outcome {} rfl (.text "Grab") hsmall (hevaluates (.bool true))
    exact (hbuilt _ hgrab rfl).2.1.mpr ⟨hnot, rfl⟩

theorem penalize_undisplayable {items : List Datum}
    (h : (Datum.list items).isDisplayable = false) :
    ¬ (Datum.list items).IsTooLarge ∧ ¬ Federations.Cmas.grab.Accepts (.list items) ∧
      (∀ e ∈ Federations.Cmas.cwt.penalizations, Datum.text e.id ≠ .list items) ∧
      (run {} (penalize (.definition Federations.Cmas.cwt) (.text "Grab") (.list items) {})).1 =
        .error (.rule .undisplayable) ∧
      (run {} (penalize (.definition Federations.Cmas.cwt) (.list items) .null {})).1 =
        .error (.rule .undisplayable) := by
  have hgrab : Federations.Cmas.grab ∈ Federations.Cmas.cwt.penalizations := by
    simp [Federations.Cmas.cwt, Federations.Cmas.fields]
  have hsmall : ¬ (Datum.list items).IsTooLarge := by simp [Datum.IsTooLarge]
  have hnot : ¬ Federations.Cmas.grab.Accepts (.list items) := by
    apply Entry.not_accepts rfl
    intro x hx
    cases hx
  have hnone : ∀ e ∈ Federations.Cmas.cwt.penalizations, Datum.text e.id ≠ .list items := by
    intro e _ hid
    cases hid
  refine ⟨hsmall, hnot, hnone, ?_, ?_⟩
  · have hrefused := run_penalize_refused {} hgrab hsmall hnot .empty
    rwa [Datum.refusal_of_undisplayable h] at hrefused
  · have hrefused := run_penalize_unknown {} hnone .null .empty
    rwa [Datum.refusal_of_undisplayable h] at hrefused

/-- A list that holds `10 ^ 4300` is no number of grabs and no id, and is refused as neither. -/
theorem penalize_longNumber :
    let long := Datum.list [.integer (.ofNat Datum.displayBound)]
    ¬ long.IsTooLarge ∧ ¬ Federations.Cmas.grab.Accepts long ∧
      (∀ e ∈ Federations.Cmas.cwt.penalizations, Datum.text e.id ≠ long) ∧
      (run {} (penalize (.definition Federations.Cmas.cwt) (.text "Grab") long {})).1 =
        .error (.rule .undisplayable) ∧
      (run {} (penalize (.definition Federations.Cmas.cwt) long .null {})).1 =
        .error (.rule .undisplayable) := by
  apply penalize_undisplayable
  rw [Datum.isDisplayable, Datum.areDisplayable, Datum.isDisplayable_displayBound, Bool.false_and]

end Session

end ApneaScoring
