import ApneaScoring.Proofs.Calculation.RoundTrip
import ApneaScoring.Proofs.Number.Ceiling
import ApneaScoring.Rule.Federations

namespace ApneaScoring

namespace Binary64

theorem isFinite_of_tolerantCeiling {x y : Binary64} (h : x.tolerantCeiling = .ok y) :
    x.isFinite = true := by
  cases x with
  | finite s u hu => rfl
  | infinite s => cases h
  | nan => cases h

theorem not_isFinite_of_tolerantCeiling {x : Binary64} {e : EvaluationError}
    (h : x.tolerantCeiling = .error e) : ¬ x.isFinite = true := by
  intro hx
  rw [tolerantCeiling_eq hx] at h
  cases h

end Binary64

namespace Calculation

variable {c a b : Calculation} {vars : Variables}

/-- An outcome of a tree comes from outcomes of all its parts. -/
theorem exists_evaluate_part {result : Option Binary64} (h : c.evaluate vars = .ok result) :
    ∀ p ∈ c.parts, ∃ value, p.evaluate vars = .ok value := by
  induction c generalizing result with
  | constant value => simpa using ⟨result, h⟩
  | «variable» name => simpa using ⟨result, h⟩
  | ceiling argument ih =>
      obtain ⟨value, hargument, -⟩ := evaluate_ceiling_eq_ok.mp h
      rw [forall_parts_ceiling]
      exact ⟨⟨result, h⟩, ih hargument⟩
  | binary op left right ihLeft ihRight =>
      obtain ⟨x, y, hleft, hright, -⟩ := evaluate_binary_eq_ok.mp h
      rw [forall_parts_binary]
      exact ⟨⟨result, h⟩, ihLeft hleft, ihRight hright⟩
  | foreign value => simpa using ⟨result, h⟩

/-- A tree fails at a ceiling in it, with the error of that ceiling. -/
theorem exists_ceiling_of_error (hrange : c.IsInRange) {e : EvaluationError}
    (h : c.evaluate vars = .error e) : ∃ argument x, ceiling argument ∈ c.parts ∧
      argument.evaluate vars = .ok (some x) ∧ x.tolerantCeiling = .error e := by
  induction c with
  | constant value =>
      obtain ⟨x, hx⟩ := hrange _ (self_mem_parts _) value rfl
      simp only [evaluate, literal, hx] at h
      cases h
  | «variable» name => cases h
  | ceiling argument ih =>
      rw [isInRange_ceiling] at hrange
      rcases evaluate_ceiling_eq_error.mp h with hargument | ⟨value, hvalue, hceiling⟩
      · obtain ⟨inner, x, hmem, hx⟩ := ih hrange hargument
        exact ⟨inner, x, List.mem_cons_of_mem _ hmem, hx⟩
      · obtain ⟨x, rfl, hx⟩ := ceilingOf_eq_error.mp hceiling
        exact ⟨argument, x, self_mem_parts _, hvalue, hx⟩
  | binary op left right ihLeft ihRight =>
      rw [isInRange_binary] at hrange
      rcases evaluate_binary_eq_error.mp h with hleft | ⟨-, -, hright⟩
      · obtain ⟨inner, x, hmem, hx⟩ := ihLeft hrange.1 hleft
        exact ⟨inner, x, List.mem_cons_of_mem _ (List.mem_append_left _ hmem), hx⟩
      · obtain ⟨inner, x, hmem, hx⟩ := ihRight hrange.2 hright
        exact ⟨inner, x, List.mem_cons_of_mem _ (List.mem_append_right _ hmem), hx⟩
  | foreign value => cases h

theorem isFinite_of_ceiling_mem {result : Option Binary64} {x : Binary64}
    (h : c.evaluate vars = .ok result) (hmem : ceiling a ∈ c.parts)
    (hx : a.evaluate vars = .ok (some x)) : x.isFinite = true := by
  obtain ⟨value, hvalue⟩ := exists_evaluate_part h _ hmem
  obtain ⟨inner, hinner, hceiling⟩ := evaluate_ceiling_eq_ok.mp hvalue
  obtain rfl := Except.ok.inj (hx.symm.trans hinner)
  cases hy : x.tolerantCeiling with
  | ok y => exact Binary64.isFinite_of_tolerantCeiling hy
  | error e =>
      rw [ceilingOf_eq_error.mpr ⟨x, rfl, hy⟩] at hceiling
      cases hceiling

/-- Trees as they are read, and as they are built of floats, variables, ceilings and
operations. -/
inductive Built : Calculation → Prop
  | read {d : Datum} {c : Calculation} (h : ofWire d = .ok c) : Built c
  | number {value : Datum} {c : Calculation} (h : ofNumber value = .ok c) : Built c
  | variable (name : String) : Built (.variable name)
  | ceiling {argument : Calculation} (h : Built argument) : Built (.ceiling argument)
  | binary {a b : Calculation} (op : Operator) (ha : Built a) (hb : Built b) :
      Built (.binary op a b)

theorem Built.hasFloats (h : Built c) : c.HasFloats := by
  induction h with
  | read hread => exact (readsAs_of_ofWire hread).hasFloats
  | @number value c hnumber =>
      unfold ofNumber at hnumber
      cases hvalue : value.toNumber with
      | error e =>
          rw [hvalue] at hnumber
          cases hnumber
      | ok x =>
          rw [hvalue] at hnumber
          obtain rfl := Except.ok.inj hnumber
          simp [HasFloats]
  | «variable» name => simp [HasFloats]
  | ceiling hargument ih => exact hasFloats_ceiling.mpr ih
  | binary op hleft hright ihLeft ihRight => exact hasFloats_binary.mpr ⟨ihLeft, ihRight⟩

/-- A tree has an outcome just if none of its ceilings is taken of an infinity or NaN; if one
is, evaluation ends with the error of such a ceiling. -/
theorem evaluate_outcome (h : Built c) (vars : Variables) :
    ((∃ result, c.evaluate vars = .ok result) ↔
      ∀ argument x, ceiling argument ∈ c.parts → argument.evaluate vars = .ok (some x) →
        x.isFinite = true) ∧
    ∀ e, c.evaluate vars = .error e → ∃ argument x, ceiling argument ∈ c.parts ∧
      argument.evaluate vars = .ok (some x) ∧ x.tolerantCeiling = .error e := by
  have hrange := h.hasFloats.isInRange
  refine ⟨?_, fun e he => exists_ceiling_of_error hrange he⟩
  constructor
  · rintro ⟨result, hresult⟩ argument x hmem hx
    exact isFinite_of_ceiling_mem hresult hmem hx
  · intro hfinite
    cases hevaluate : c.evaluate vars with
    | ok result => exact ⟨result, rfl⟩
    | error e =>
        obtain ⟨argument, x, hmem, hx, hceiling⟩ := exists_ceiling_of_error hrange hevaluate
        exact absurd (hfinite argument x hmem hx)
          (Binary64.not_isFinite_of_tolerantCeiling hceiling)

/-- The charge for starting seven seconds late is two points. -/
theorem evaluate_outcome_sevenSeconds :
    Built Federations.onePerFiveSeconds ∧
    Federations.onePerFiveSeconds.evaluate { input := some (.ofDecimal false 7 0) } =
      .ok (some (.ofDecimal false 2 0)) ∧
    ∀ argument x, ceiling argument ∈ Federations.onePerFiveSeconds.parts →
      argument.evaluate { input := some (.ofDecimal false 7 0) } = .ok (some x) →
        x.isFinite = true := by
  have hrate : Built (Federations.tenths 2) :=
    @Built.number (.float (.ofDecimal false 2 (-1))) _ rfl
  have hbuilt : Built Federations.onePerFiveSeconds :=
    .ceiling (.binary .multiply hrate (.variable "Input"))
  have hcharge : Federations.onePerFiveSeconds.evaluate
      { input := some (.ofDecimal false 7 0) } = .ok (some (.ofDecimal false 2 0)) := by
    decide +kernel
  exact ⟨hbuilt, hcharge, (evaluate_outcome hbuilt _).1.mp ⟨_, hcharge⟩⟩

/-- A record may hold an infinity, and the ceiling of it fails. -/
theorem evaluate_endlessDive :
    ∃ c realized, ofWire (.map [(.text "operation", .text "Ceiling"),
        (.text "argumentA", .map [(.text "operation", .text "Variable"),
          (.text "variable", .text "RealizedDuration")])]) = .ok c ∧
      Performance.ofRecord (.map [(.text "duration", .text "inf")]) = .ok realized ∧
      c.evaluate { realized } = .error .ceilingOfInfinity := by
  have hvariable : ReadsAs (.map [(.text "operation", .text "Variable"),
      (.text "variable", .text "RealizedDuration")]) (.variable "RealizedDuration") := by
    apply ReadsAs.variable <;> simp [Datum.get?_cons]
  refine ⟨_, { duration := some (.infinite false) },
    (ReadsAs.ceiling ?_ ?_ hvariable).ofWire, ?_, rfl⟩
  · simp [Datum.get?_cons]
  · simp [Datum.get?_cons]
  · decide +kernel

end Calculation

end ApneaScoring
