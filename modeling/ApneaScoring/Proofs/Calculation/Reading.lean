import ApneaScoring.Calculation.Wire

namespace ApneaScoring

namespace Datum

/-- A law of values is a law of all values once a map inherits it from what it holds. -/
theorem get?_induction {P : Datum → Prop}
    (step : ∀ d, (∀ key value, d.get? key = some value → P value) → P d) (d : Datum) : P d := by
  apply step
  intro key value hvalue
  obtain ⟨entries, rfl⟩ := exists_entries_of_get? hvalue
  have := sizeOf_lt_of_get? hvalue
  exact get?_induction step value
termination_by sizeOf d

end Datum

namespace Calculation

section

variable {given : Datum} {error e : WireError}

theorem refuse_of_displayable (h : given.isDisplayable = true) :
    refuse given error = .error error := by
  rw [refuse, Datum.refusal_of_displayable h]

theorem refuse_of_undisplayable (h : given.isDisplayable = false) :
    refuse given error = .error .undisplayable := by
  rw [refuse, Datum.refusal_of_undisplayable h]

theorem refuse_eq_error (h : refuse given error = .error e) :
    e = error ∨ e = .undisplayable ∧ given.isDisplayable = false := by
  cases hgiven : given.isDisplayable with
  | true =>
      rw [refuse_of_displayable hgiven] at h
      exact .inl (Except.error.inj h).symm
  | false =>
      rw [refuse_of_undisplayable hgiven] at h
      exact .inr ⟨(Except.error.inj h).symm, rfl⟩

end

theorem constantOfWire_of_ok {value : Datum} {number : Literal} {x : Binary64}
    (hnumber : Literal.ofDatum? value = some number) (h : number.toNumber = .ok x) :
    constantOfWire value = .ok (constant (.float x)) := by
  simp only [constantOfWire, hnumber, h]

theorem constantOfWire_of_error {value : Datum} {number : Literal} {e : NumberError}
    (hnumber : Literal.ofDatum? value = some number) (h : number.toNumber = .error e) :
    constantOfWire value = .error .constantTooLarge := by
  simp only [constantOfWire, hnumber, h]

theorem constantOfWire_integer {i : Int} {x : Binary64} (h : Binary64.ofInt? i = some x) :
    constantOfWire (.integer i) = .ok (constant (.float x)) := by
  have hnumber := Literal.toNumber_near h
  exact constantOfWire_of_ok rfl hnumber

theorem constantOfWire_large {i : Int} (h : Binary64.ofInt? i = none) :
    constantOfWire (.integer i) = .error .constantTooLarge := by
  have hnumber := Literal.toNumber_large h
  exact constantOfWire_of_error rfl hnumber

theorem constantOfWire_of_none {value : Datum} (h : Literal.ofDatum? value = none) :
    constantOfWire value = refuse value (.constantNotNumeric value) := by
  simp only [constantOfWire, h]

theorem constantOfWire_eq_ok {value : Datum} {c : Calculation}
    (h : constantOfWire value = .ok c) :
    ∃ x, c = constant (.float x) ∧
      (value = .float x ∨ ∃ i, value = .integer i ∧ Binary64.ofInt? i = some x) := by
  cases value with
  | float x => exact ⟨x, (Except.ok.inj h).symm, .inl rfl⟩
  | integer i =>
      cases hnear : Binary64.ofInt? i with
      | some x =>
          rw [constantOfWire_integer hnear] at h
          exact ⟨x, (Except.ok.inj h).symm, .inr ⟨i, rfl, hnear⟩⟩
      | none =>
          rw [constantOfWire_large hnear] at h
          cases h
  | _ => cases h

theorem constantOfWire_eq_error {value : Datum} {e : WireError}
    (h : constantOfWire value = .error e) :
    e = .constantNotNumeric value ∨
      (e = .constantTooLarge ∧ ∃ i, value = .integer i ∧ Binary64.ofInt? i = none) ∨
      e = .undisplayable ∧ Literal.ofDatum? value = none ∧ value.isDisplayable = false := by
  cases value with
  | float x => cases h
  | integer i =>
      cases hnear : Binary64.ofInt? i with
      | some x =>
          rw [constantOfWire_integer hnear] at h
          cases h
      | none =>
          rw [constantOfWire_large hnear] at h
          exact .inr (.inl ⟨(Except.error.inj h).symm, i, rfl, hnear⟩)
  | _ =>
      rcases refuse_eq_error h with he | ⟨he, hlong⟩
      · exact .inl he
      · exact .inr (.inr ⟨he, rfl, hlong⟩)

theorem variableOfWire_text {name : String} (h : name ≠ "") :
    variableOfWire (.text name) = .ok (.variable name) := by
  simp [variableOfWire, h]

theorem variableOfWire_eq_ok {value : Datum} {c : Calculation}
    (h : variableOfWire value = .ok c) :
    ∃ name, value = .text name ∧ name ≠ "" ∧ c = .variable name := by
  cases value with
  | text name =>
      by_cases hname : name = ""
      · rw [hname] at h
        cases h
      · rw [variableOfWire_text hname] at h
        exact ⟨name, rfl, hname, (Except.ok.inj h).symm⟩
  | _ => cases h

theorem variableOfWire_undisplayable {value : Datum} (h : value.isDisplayable = false) :
    variableOfWire value = .error .undisplayable := by
  cases value with
  | text name => cases h
  | _ => exact refuse_of_undisplayable h

theorem variableOfWire_eq_error {value : Datum} {e : WireError}
    (h : variableOfWire value = .error e) :
    e = .unnamedVariable value ∨ e = .undisplayable ∧ value.isDisplayable = false := by
  cases value with
  | text name =>
      by_cases hname : name = ""
      · subst hname
        exact .inl (Except.error.inj h).symm
      · rw [variableOfWire_text hname] at h
        cases h
  | _ => exact refuse_eq_error h

theorem eq_some_of_getD {o : Option Datum} {value : Datum} (h : o.getD .null = value)
    (hvalue : value ≠ .null) : o = some value := by
  cases o with
  | none => exact absurd h.symm hvalue
  | some other => exact congrArg some h

def operand (d : Datum) (operation key : String) : Except WireError Calculation :=
  match (d.get? key).getD .null with
  | .null => .error (.missingArgument operation key)
  | value => ofWire value

theorem lookup_argumentsOf (entries : List (Datum × Datum)) (key : String) :
    (argumentsOf entries).lookup key = ((Datum.map entries).get? key).map ofWire := by
  induction entries with
  | nil => rfl
  | cons entry entries ih =>
      obtain ⟨k, v⟩ := entry
      rw [Datum.get?_cons]
      cases k with
      | text name =>
          by_cases h : name = key
          · simp [argumentsOf, argumentOf, h]
          · have hne : (key == name) = false := by simp [Ne.symm h]
            simp [argumentsOf, argumentOf, h, List.lookup_cons, hne, ih]
      | _ => simp [argumentsOf, argumentOf, ih]

theorem argument_argumentsOf (entries : List (Datum × Datum)) (operation key : String) :
    argument (.map entries) (argumentsOf entries) operation key =
      operand (.map entries) operation key := by
  unfold argument operand
  rw [lookup_argumentsOf]
  cases (Datum.map entries).get? key with
  | none => rfl
  | some value => cases value <;> rfl

section

variable {d : Datum}

theorem ofWire_of_constant (h : d.get? "operation" = some (.text "Constant")) :
    ofWire d = constantOfWire ((d.get? "constant").getD .null) := by
  obtain ⟨entries, rfl⟩ := Datum.exists_entries_of_get? h
  simp only [ofWire, assemble, h, Option.getD_some]

theorem ofWire_of_variable (h : d.get? "operation" = some (.text "Variable")) :
    ofWire d = variableOfWire ((d.get? "variable").getD .null) := by
  obtain ⟨entries, rfl⟩ := Datum.exists_entries_of_get? h
  simp only [ofWire, assemble, h, Option.getD_some]

theorem ofWire_of_ceiling (h : d.get? "operation" = some (.text "Ceiling")) :
    ofWire d = (operand d "Ceiling" "argumentA").map ceiling := by
  obtain ⟨entries, rfl⟩ := Datum.exists_entries_of_get? h
  simp only [ofWire, assemble, h, Option.getD_some, argument_argumentsOf]
  cases operand (.map entries) "Ceiling" "argumentA" <;> rfl

theorem ofWire_of_binary {op : Operator} (h : d.get? "operation" = some (.text op.name)) :
    ofWire d = do
      let a ← operand d op.name "argumentA"
      let b ← operand d op.name "argumentB"
      return binary op a b := by
  obtain ⟨entries, rfl⟩ := Datum.exists_entries_of_get? h
  have hassemble : assemble (.map entries) (argumentsOf entries) = (do
      let a ← argument (.map entries) (argumentsOf entries) op.name "argumentA"
      let b ← argument (.map entries) (argumentsOf entries) op.name "argumentB"
      (ofSymbol op.symbol a b).mapError .operator) := by
    unfold assemble
    rw [h]
    cases op <;> rfl
  simp only [ofWire, hassemble, argument_argumentsOf, ofSymbol_symbol]
  rfl

theorem ofWire_of_composite {given : Datum} (h : d.get? "operation" = some given)
    (hgiven : given.isComposite = true) : ofWire d = .error .compositeOperation := by
  obtain ⟨entries, rfl⟩ := Datum.exists_entries_of_get? h
  cases given with
  | list items => simp only [ofWire, assemble, h, Option.getD_some]
  | map fields => simp only [ofWire, assemble, h, Option.getD_some]
  | _ => cases hgiven

theorem ofWire_of_shapeless (h : ∀ entries, d ≠ .map entries) :
    ofWire d = refuse d (.notAnObject d) := by
  cases d with
  | map entries => exact absurd rfl (h entries)
  | _ => simp only [ofWire]

theorem ofWire_of_integer {i : Int} (h : d.get? "operation" = some (.integer i)) :
    ofWire d = refuse (.integer i) (.unknownOperation (.integer i)) := by
  obtain ⟨entries, rfl⟩ := Datum.exists_entries_of_get? h
  simp only [ofWire, assemble, h, Option.getD_some]

theorem ofWire_of_unknown {entries : List (Datum × Datum)} {s : String}
    (h : (Datum.map entries).get? "operation" = some (.text s)) (hconstant : s ≠ "Constant")
    (hvariable : s ≠ "Variable") (hceiling : s ≠ "Ceiling") (hop : Operator.ofName? s = none) :
    ofWire (.map entries) = .error (.unknownOperation (.text s)) := by
  simp only [ofWire, assemble, h, Option.getD_some, hop]

/-- The operation that a value asks for, or why it asks for none. -/
inductive Selects (d : Datum) : Prop
  | constant (operation : d.get? "operation" = some (.text "Constant"))
  | variable (operation : d.get? "operation" = some (.text "Variable"))
  | ceiling (operation : d.get? "operation" = some (.text "Ceiling"))
  | binary (op : Operator) (operation : d.get? "operation" = some (.text op.name))
  | composite {given : Datum} (operation : d.get? "operation" = some given)
      (composite : given.isComposite = true)
  | shapeless (shape : ∀ entries, d ≠ .map entries)
  | integer {i : Int} (operation : d.get? "operation" = some (.integer i))
  | unknown {given : Datum} (refused : ofWire d = .error (.unknownOperation given))

theorem selects_text {entries : List (Datum × Datum)} {s : String}
    (h : (Datum.map entries).get? "operation" = some (.text s)) : Selects (.map entries) := by
  by_cases hconstant : s = "Constant"
  · exact .constant (hconstant ▸ h)
  by_cases hvariable : s = "Variable"
  · exact .variable (hvariable ▸ h)
  by_cases hceiling : s = "Ceiling"
  · exact .ceiling (hceiling ▸ h)
  cases hop : Operator.ofName? s with
  | some op => exact .binary op (Operator.name_of_ofName? hop ▸ h)
  | none => exact .unknown (ofWire_of_unknown h hconstant hvariable hceiling hop)

theorem selects (d : Datum) : Selects d := by
  cases d with
  | map entries =>
      cases h : (Datum.map entries).get? "operation" with
      | none =>
          apply Selects.unknown
          simp only [ofWire, assemble, h, Option.getD_none]
          rfl
      | some value =>
          cases value with
          | text s => exact selects_text h
          | list items => exact .composite h rfl
          | map fields => exact .composite h rfl
          | integer i => exact .integer h
          | _ =>
              apply Selects.unknown
              simp only [ofWire, assemble, h, Option.getD_some]
              rfl
  | _ => exact .shapeless (by simp)

theorem operand_eq_ok {operation key : String} {c : Calculation} :
    operand d operation key = .ok c ↔ ∃ a, d.get? key = some a ∧ ofWire a = .ok c := by
  unfold operand
  cases d.get? key with
  | none => simp
  | some value => cases value <;> simp [ofWire, refuse]

theorem operand_eq_error {operation key : String} {e : WireError}
    (h : operand d operation key = .error e) :
    e = .missingArgument operation key ∨ ∃ a, d.get? key = some a ∧ ofWire a = .error e := by
  unfold operand at h
  split at h
  · exact .inl (Except.error.inj h).symm
  · next value hvalue =>
      refine .inr ⟨_, eq_some_of_getD rfl ?_, h⟩
      exact hvalue

theorem ofWire_eq_ok_of_ceiling {c : Calculation}
    (h : d.get? "operation" = some (.text "Ceiling")) :
    ofWire d = .ok c ↔
      ∃ argument, operand d "Ceiling" "argumentA" = .ok argument ∧ ceiling argument = c := by
  rw [ofWire_of_ceiling h]
  cases operand d "Ceiling" "argumentA" <;> simp [Except.map]

theorem ofWire_eq_error_of_ceiling {e : WireError}
    (h : d.get? "operation" = some (.text "Ceiling")) :
    ofWire d = .error e ↔ operand d "Ceiling" "argumentA" = .error e := by
  rw [ofWire_of_ceiling h]
  cases operand d "Ceiling" "argumentA" <;> simp [Except.map]

theorem ofWire_eq_ok_of_binary {op : Operator} {c : Calculation}
    (h : d.get? "operation" = some (.text op.name)) :
    ofWire d = .ok c ↔ ∃ left right, operand d op.name "argumentA" = .ok left ∧
      operand d op.name "argumentB" = .ok right ∧ binary op left right = c := by
  rw [ofWire_of_binary h]
  cases operand d op.name "argumentA" with
  | error e => simp [bind, Except.bind]
  | ok left =>
      cases operand d op.name "argumentB" <;> simp [bind, Except.bind, pure, Except.pure]

/-- The second operand is not looked at before the first one is read. -/
theorem ofWire_eq_error_of_binary {op : Operator} {e : WireError}
    (h : d.get? "operation" = some (.text op.name)) :
    ofWire d = .error e ↔ operand d op.name "argumentA" = .error e ∨
      ∃ left, operand d op.name "argumentA" = .ok left ∧
        operand d op.name "argumentB" = .error e := by
  rw [ofWire_of_binary h]
  cases operand d op.name "argumentA" with
  | error e => simp [bind, Except.bind]
  | ok left =>
      cases operand d op.name "argumentB" <;> simp [bind, Except.bind, pure, Except.pure]

end

end Calculation

end ApneaScoring
