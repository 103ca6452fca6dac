import ApneaScoring.Calculation.Evaluation

namespace ApneaScoring.Calculation

def parts : Calculation → List Calculation
  | constant value => [constant value]
  | .variable name => [.variable name]
  | ceiling argument => ceiling argument :: argument.parts
  | binary op a b => binary op a b :: (a.parts ++ b.parts)
  | foreign value => [foreign value]

section

variable {P : Calculation → Prop} {op : Operator} {argument a b : Calculation}

@[simp] theorem forall_parts_constant {value : Literal} :
    (∀ p ∈ (constant value).parts, P p) ↔ P (constant value) := by
  simp [parts]

@[simp] theorem forall_parts_variable {name : String} :
    (∀ p ∈ (Calculation.variable name).parts, P p) ↔ P (.variable name) := by
  simp [parts]

@[simp] theorem forall_parts_ceiling :
    (∀ p ∈ (ceiling argument).parts, P p) ↔
      P (ceiling argument) ∧ ∀ p ∈ argument.parts, P p := by
  simp [parts]

@[simp] theorem forall_parts_binary :
    (∀ p ∈ (binary op a b).parts, P p) ↔
      P (binary op a b) ∧ (∀ p ∈ a.parts, P p) ∧ ∀ p ∈ b.parts, P p := by
  simp [parts, or_imp, forall_and]

@[simp] theorem forall_parts_foreign {value : Datum} :
    (∀ p ∈ (foreign value).parts, P p) ↔ P (foreign value) := by
  simp [parts]

end

theorem self_mem_parts (c : Calculation) : c ∈ c.parts := by
  cases c <;> exact List.mem_cons_self

/-- Made of constants, variables, ceilings and operations alone. -/
def IsGenuine (c : Calculation) : Prop :=
  ∀ p ∈ c.parts, ∀ value, p ≠ foreign value

def IsNamed (c : Calculation) : Prop :=
  ∀ p ∈ c.parts, ∀ name, p = .variable name → name ≠ ""

def HasFloats (c : Calculation) : Prop :=
  ∀ p ∈ c.parts, ∀ value, p = constant value → ∃ x, value = .float x

def IsInRange (c : Calculation) : Prop :=
  ∀ p ∈ c.parts, ∀ value, p = constant value → ∃ x, value.toNumber = .ok x

section

variable {op : Operator} {argument a b : Calculation}

@[simp] theorem isGenuine_ceiling : (ceiling argument).IsGenuine ↔ argument.IsGenuine := by
  simp [IsGenuine]

@[simp] theorem isGenuine_binary :
    (binary op a b).IsGenuine ↔ a.IsGenuine ∧ b.IsGenuine := by
  simp [IsGenuine]

@[simp] theorem isNamed_ceiling : (ceiling argument).IsNamed ↔ argument.IsNamed := by
  simp [IsNamed]

@[simp] theorem isNamed_binary : (binary op a b).IsNamed ↔ a.IsNamed ∧ b.IsNamed := by
  simp [IsNamed]

@[simp] theorem hasFloats_ceiling : (ceiling argument).HasFloats ↔ argument.HasFloats := by
  simp [HasFloats]

@[simp] theorem hasFloats_binary :
    (binary op a b).HasFloats ↔ a.HasFloats ∧ b.HasFloats := by
  simp [HasFloats]

@[simp] theorem isInRange_ceiling : (ceiling argument).IsInRange ↔ argument.IsInRange := by
  simp [IsInRange]

@[simp] theorem isInRange_binary :
    (binary op a b).IsInRange ↔ a.IsInRange ∧ b.IsInRange := by
  simp [IsInRange]

end

theorem HasFloats.isInRange {c : Calculation} (h : c.HasFloats) : c.IsInRange := by
  intro p hp value hvalue
  obtain ⟨x, rfl⟩ := h p hp value hvalue
  exact ⟨x, rfl⟩

def toFloats : Calculation → Calculation
  | constant value => match value.toNumber with
      | .ok x => constant (.float x)
      | .error _ => constant value
  | .variable name => .variable name
  | ceiling argument => ceiling argument.toFloats
  | binary op a b => binary op a.toFloats b.toFloats
  | foreign value => foreign value

theorem toFloats_constant {value : Literal} {x : Binary64} (h : value.toNumber = .ok x) :
    (constant value).toFloats = constant (.float x) := by
  simp [toFloats, h]

theorem toFloats_eq_self {c : Calculation} (h : c.HasFloats) : c.toFloats = c := by
  induction c with
  | constant value =>
      obtain ⟨x, rfl⟩ := h _ (self_mem_parts _) value rfl
      rfl
  | «variable» name => rfl
  | ceiling argument ih =>
      rw [hasFloats_ceiling] at h
      simp only [toFloats, ih h]
  | binary op a b iha ihb =>
      rw [hasFloats_binary] at h
      simp only [toFloats, iha h.1, ihb h.2]
  | foreign value => rfl

theorem evaluate_toFloats (vars : Variables) (c : Calculation) :
    c.toFloats.evaluate vars = c.evaluate vars := by
  induction c with
  | constant value =>
      cases hnumber : value.toNumber with
      | ok x =>
          rw [toFloats_constant hnumber]
          simp only [evaluate, literal, hnumber]
          rfl
      | error e => simp [toFloats, hnumber]
  | «variable» name => rfl
  | ceiling argument ih => simp only [toFloats, evaluate, ih]
  | binary op a b iha ihb => simp only [toFloats, evaluate, iha, ihb]
  | foreign value => rfl

end ApneaScoring.Calculation
