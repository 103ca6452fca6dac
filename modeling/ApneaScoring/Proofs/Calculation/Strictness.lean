import ApneaScoring.Proofs.Calculation.Parts
import ApneaScoring.Rule.Federations
import Mathlib.Control.Monad.Basic

namespace ApneaScoring

namespace Variables

variable {vars : Variables} {name : String}

def names : List String :=
  ["Input", "AnnouncedDuration", "AnnouncedDistance", "AnnouncedDepth", "RealizedDuration",
    "RealizedDistance", "RealizedDepth"]

theorem get?_eq_none (h : name ∉ names) : vars.get? name = none := by
  simp only [names, List.mem_cons, List.not_mem_nil, or_false, not_or] at h
  obtain ⟨hinput, haDuration, haDistance, haDepth, hrDuration, hrDistance, hrDepth⟩ := h
  unfold get?
  split <;> first | contradiction | rfl

theorem mem_names {value : Binary64} (h : vars.get? name = some value) : name ∈ names := by
  by_cases hname : name ∈ names
  · exact hname
  · rw [get?_eq_none hname] at h
    cases h

/-- Values that are present in both are the same, and none is lost. -/
def FilledIn (vars full : Variables) : Prop :=
  ∀ name value, vars.get? name = some value → full.get? name = some value

end Variables

namespace Calculation

variable {c : Calculation} {vars vars' : Variables} {x : Binary64}

theorem evaluate_congr
    (h : ∀ name ∈ Variables.names, .variable name ∈ c.parts → vars.get? name = vars'.get? name) :
    c.evaluate vars = c.evaluate vars' := by
  induction c with
  | constant value => rfl
  | «variable» name =>
      by_cases hname : name ∈ Variables.names
      · exact congrArg Except.ok (h name hname (self_mem_parts _))
      · simp only [evaluate, Variables.get?_eq_none hname]
  | ceiling argument ih =>
      have hargument := ih fun name hname hmem => h name hname (List.mem_cons_of_mem _ hmem)
      simp only [evaluate, hargument]
  | binary op a b iha ihb =>
      have hleft := iha fun name hname hmem =>
        h name hname (List.mem_cons_of_mem _ (List.mem_append_left _ hmem))
      have hright := ihb fun name hname hmem =>
        h name hname (List.mem_cons_of_mem _ (List.mem_append_right _ hmem))
      simp only [evaluate, hleft, hright]
  | foreign value => rfl

theorem ceilingOf_eq_some {value : Option Binary64} (h : ceilingOf value = .ok (some x)) :
    ∃ y, value = some y := by
  cases value with
  | none => cases h
  | some y => exact ⟨y, rfl⟩

theorem combine_eq_some {op : Operator} {left right : Option Binary64}
    (h : combine op left right = some x) : (∃ y, left = some y) ∧ ∃ z, right = some z := by
  cases left with
  | none => cases h
  | some y =>
      cases right with
      | none => cases h
      | some z => exact ⟨⟨y, rfl⟩, z, rfl⟩

theorem exists_number_part (h : c.evaluate vars = .ok (some x)) :
    ∀ p ∈ c.parts, ∃ y, p.evaluate vars = .ok (some y) := by
  induction c generalizing x with
  | constant value => simpa using ⟨x, h⟩
  | «variable» name => simpa using ⟨x, h⟩
  | ceiling argument ih =>
      obtain ⟨value, hargument, hceiling⟩ := evaluate_ceiling_eq_ok.mp h
      obtain ⟨y, rfl⟩ := ceilingOf_eq_some hceiling
      rw [forall_parts_ceiling]
      exact ⟨⟨x, h⟩, ih hargument⟩
  | binary op a b iha ihb =>
      obtain ⟨left, right, hleft, hright, hcombine⟩ := evaluate_binary_eq_ok.mp h
      obtain ⟨⟨y, rfl⟩, z, rfl⟩ := combine_eq_some hcombine
      rw [forall_parts_binary]
      exact ⟨⟨x, h⟩, iha hleft, ihb hright⟩
  | foreign value => cases h

theorem isGenuine_of_number (h : c.evaluate vars = .ok (some x)) : c.IsGenuine := by
  rintro p hp value rfl
  obtain ⟨y, hy⟩ := exists_number_part h _ hp
  cases hy

theorem exists_value_of_number (h : c.evaluate vars = .ok (some x)) {name : String}
    (hname : .variable name ∈ c.parts) : ∃ value, vars.get? name = some value := by
  obtain ⟨value, hvalue⟩ := exists_number_part h _ hname
  exact ⟨value, Except.ok.inj hvalue⟩

theorem evaluate_strict (c : Calculation) :
    (∀ vars x, c.evaluate vars = .ok (some x) →
      c.IsGenuine ∧ ∀ name, .variable name ∈ c.parts →
        name ∈ Variables.names ∧ ∃ value, vars.get? name = some value) ∧
    (∀ vars vars',
      (∀ name ∈ Variables.names, .variable name ∈ c.parts →
        vars.get? name = vars'.get? name) →
      c.evaluate vars = c.evaluate vars') ∧
    ∀ vars full x, vars.FilledIn full → c.evaluate vars = .ok (some x) →
      c.evaluate full = .ok (some x) := by
  refine ⟨fun vars x h => ⟨isGenuine_of_number h, fun name hname => ?_⟩,
    fun vars vars' => evaluate_congr, fun vars full x hfull h => ?_⟩
  · obtain ⟨value, hvalue⟩ := exists_value_of_number h hname
    exact ⟨Variables.mem_names hvalue, value, hvalue⟩
  · rw [← h]
    apply evaluate_congr
    intro name _ hname
    obtain ⟨value, hvalue⟩ := exists_value_of_number h hname
    rw [hvalue, hfull name value hvalue]

/-- The charge for starting seven seconds late does not change with the dive that follows. -/
theorem evaluate_strict_lateStart :
    Federations.onePerFiveSeconds.evaluate { input := some (.ofDecimal false 7 0) } =
      .ok (some (.ofDecimal false 2 0)) ∧
    (∃ value, Variables.get? { input := some (.ofDecimal false 7 0) } "Input" = some value) ∧
    Variables.FilledIn { input := some (.ofDecimal false 7 0) }
      { input := some (.ofDecimal false 7 0),
        realized := { duration := some (.ofDecimal false 90 0) } } ∧
    Federations.onePerFiveSeconds.evaluate
      { input := some (.ofDecimal false 7 0),
        realized := { duration := some (.ofDecimal false 90 0) } } =
      .ok (some (.ofDecimal false 2 0)) := by
  have hcharge : Federations.onePerFiveSeconds.evaluate
      { input := some (.ofDecimal false 7 0) } = .ok (some (.ofDecimal false 2 0)) := by
    decide +kernel
  have hinput : Calculation.variable "Input" ∈ Federations.onePerFiveSeconds.parts := by
    decide
  have hfilled : Variables.FilledIn { input := some (.ofDecimal false 7 0) }
      { input := some (.ofDecimal false 7 0),
        realized := { duration := some (.ofDecimal false 90 0) } } := by
    intro name value h
    unfold Variables.get? at h ⊢
    split at h
    · exact h
    all_goals cases h
  obtain ⟨hnumber, -, hfull⟩ := evaluate_strict Federations.onePerFiveSeconds
  exact ⟨hcharge, ((hnumber _ _ hcharge).2 "Input" hinput).2, hfilled,
    hfull _ _ _ hfilled hcharge⟩

end Calculation

end ApneaScoring
