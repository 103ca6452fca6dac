import ApneaScoring.Error
import ApneaScoring.Proofs.Calculation.Parts
import ApneaScoring.Proofs.Calculation.Reading

namespace ApneaScoring.Calculation

inductive ReadsAs : Datum → Calculation → Prop
  | float {d : Datum} {x : Binary64}
      (operation : d.get? "operation" = some (.text "Constant"))
      (value : d.get? "constant" = some (.float x)) : ReadsAs d (constant (.float x))
  | integer {d : Datum} {i : Int} {x : Binary64}
      (operation : d.get? "operation" = some (.text "Constant"))
      (value : d.get? "constant" = some (.integer i))
      (near : Binary64.ofInt? i = some x) : ReadsAs d (constant (.float x))
  | variable {d : Datum} {name : String}
      (operation : d.get? "operation" = some (.text "Variable"))
      (value : d.get? "variable" = some (.text name))
      (named : name ≠ "") : ReadsAs d (.variable name)
  | ceiling {d a : Datum} {argument : Calculation}
      (operation : d.get? "operation" = some (.text "Ceiling"))
      (operand : d.get? "argumentA" = some a)
      (reads : ReadsAs a argument) : ReadsAs d (ceiling argument)
  | binary {d a b : Datum} {left right : Calculation} (op : Operator)
      (operation : d.get? "operation" = some (.text op.name))
      (first : d.get? "argumentA" = some a) (readsFirst : ReadsAs a left)
      (second : d.get? "argumentB" = some b) (readsSecond : ReadsAs b right) :
      ReadsAs d (binary op left right)

section

variable {d : Datum} {c : Calculation}

theorem readsAs_of_ofWire (h : ofWire d = .ok c) : ReadsAs d c := by
  induction d using Datum.get?_induction generalizing c with
  | step d ih =>
      cases selects d with
      | constant operation =>
          rw [ofWire_of_constant operation] at h
          obtain ⟨x, rfl, hfloat | ⟨i, hinteger, hnear⟩⟩ := constantOfWire_eq_ok h
          · exact .float operation (eq_some_of_getD hfloat (by simp))
          · exact .integer operation (eq_some_of_getD hinteger (by simp)) hnear
      | «variable» operation =>
          rw [ofWire_of_variable operation] at h
          obtain ⟨name, hname, hnamed, rfl⟩ := variableOfWire_eq_ok h
          exact .variable operation (eq_some_of_getD hname (by simp)) hnamed
      | ceiling operation =>
          obtain ⟨argument, hoperand, rfl⟩ := (ofWire_eq_ok_of_ceiling operation).mp h
          obtain ⟨a, ha, hargument⟩ := operand_eq_ok.mp hoperand
          exact .ceiling operation ha (ih _ a ha hargument)
      | binary op operation =>
          obtain ⟨left, right, hfirst, hsecond, rfl⟩ :=
            (ofWire_eq_ok_of_binary operation).mp h
          obtain ⟨a, ha, hleft⟩ := operand_eq_ok.mp hfirst
          obtain ⟨b, hb, hright⟩ := operand_eq_ok.mp hsecond
          exact .binary op operation ha (ih _ a ha hleft) hb (ih _ b hb hright)
      | composite operation composite =>
          rw [ofWire_of_composite operation composite] at h
          cases h
      | shapeless shape =>
          rw [ofWire_of_shapeless shape] at h
          cases h
      | integer operation =>
          rw [ofWire_of_integer operation] at h
          cases h
      | unknown refused =>
          rw [refused] at h
          cases h

theorem ReadsAs.ofWire (h : ReadsAs d c) : ofWire d = .ok c := by
  induction h with
  | float operation value =>
      rw [ofWire_of_constant operation, value]
      rfl
  | integer operation value near =>
      rw [ofWire_of_constant operation, value]
      exact constantOfWire_integer near
  | «variable» operation value named =>
      rw [ofWire_of_variable operation, value]
      exact variableOfWire_text named
  | ceiling operation argument reads ih =>
      exact (ofWire_eq_ok_of_ceiling operation).mpr ⟨_, operand_eq_ok.mpr ⟨_, argument, ih⟩, rfl⟩
  | binary op operation first readsFirst second readsSecond ihFirst ihSecond =>
      exact (ofWire_eq_ok_of_binary operation).mpr
        ⟨_, _, operand_eq_ok.mpr ⟨_, first, ihFirst⟩, operand_eq_ok.mpr ⟨_, second, ihSecond⟩, rfl⟩

theorem ofWire_eq_ok : ofWire d = .ok c ↔ ReadsAs d c :=
  ⟨readsAs_of_ofWire, ReadsAs.ofWire⟩

end

/-- Reading a value comes to another: to its first argument, and to its second one once the
first is read. -/
inductive Reached (n : Datum) : Datum → Prop
  | here : Reached n n
  | argument {d a : Datum}
      (operation : d.get? "operation" = some (.text "Ceiling"))
      (operand : d.get? "argumentA" = some a) (inner : Reached n a) : Reached n d
  | first {d a : Datum} (op : Operator)
      (operation : d.get? "operation" = some (.text op.name))
      (operand : d.get? "argumentA" = some a) (inner : Reached n a) : Reached n d
  | second {d a b : Datum} {left : Calculation} (op : Operator)
      (operation : d.get? "operation" = some (.text op.name))
      (read : d.get? "argumentA" = some a) (reads : ReadsAs a left)
      (operand : d.get? "argumentB" = some b) (inner : Reached n b) : Reached n d

/-- A list or a map cannot be looked up among the operations, an integer past the range has no
float, and what holds an integer of too many digits cannot be displayed when it is refused. -/
inductive Trips (n : Datum) : WireError → Prop
  | composite {given : Datum} (operation : n.get? "operation" = some given)
      (composite : given.isComposite = true) : Trips n .compositeOperation
  | large {i : Int} (operation : n.get? "operation" = some (.text "Constant"))
      (value : n.get? "constant" = some (.integer i))
      (range : Binary64.ofInt? i = none) : Trips n .constantTooLarge
  | longValue (shape : ∀ entries, n ≠ .map entries) (long : n.isDisplayable = false) :
      Trips n .undisplayable
  | longOperation {i : Int} (operation : n.get? "operation" = some (.integer i))
      (long : (Datum.integer i).isDisplayable = false) : Trips n .undisplayable
  | longConstant {given : Datum} (operation : n.get? "operation" = some (.text "Constant"))
      (value : n.get? "constant" = some given) (kind : Literal.ofDatum? given = none)
      (long : given.isDisplayable = false) : Trips n .undisplayable
  | longVariable {given : Datum} (operation : n.get? "operation" = some (.text "Variable"))
      (value : n.get? "variable" = some given)
      (long : given.isDisplayable = false) : Trips n .undisplayable

section

variable {d n : Datum} {e : WireError}

theorem Trips.ofWire (h : Trips n e) : ofWire n = .error e := by
  cases h with
  | composite operation composite => exact ofWire_of_composite operation composite
  | large operation value range =>
      rw [ofWire_of_constant operation, value]
      exact constantOfWire_large range
  | longValue shape long =>
      rw [ofWire_of_shapeless shape]
      exact refuse_of_undisplayable long
  | longOperation operation long =>
      rw [ofWire_of_integer operation]
      exact refuse_of_undisplayable long
  | longConstant operation value kind long =>
      rw [ofWire_of_constant operation, value]
      exact (constantOfWire_of_none kind).trans (refuse_of_undisplayable long)
  | longVariable operation value long =>
      rw [ofWire_of_variable operation, value]
      exact variableOfWire_undisplayable long

theorem Trips.isRefusal (h : Trips n e) : (ScoringError.wire e).isRefusal = false := by
  cases h <;> rfl

/-- A null is refused as a missing argument, not as what it is. -/
theorem operand_of_error {operation key : String} {a : Datum} (ha : d.get? key = some a)
    (he : (ScoringError.wire e).isRefusal = false) (h : ofWire a = .error e) :
    operand d operation key = .error e := by
  unfold operand
  rw [ha]
  cases a with
  | null =>
      obtain rfl := Except.error.inj h
      cases he
  | _ => exact h

theorem ofWire_of_reached (hreached : Reached n d) (htrips : Trips n e) :
    ofWire d = .error e := by
  have he := htrips.isRefusal
  induction hreached with
  | here => exact htrips.ofWire
  | argument operation argument inner ih =>
      exact (ofWire_eq_error_of_ceiling operation).mpr (operand_of_error argument he ih)
  | first op operation argument inner ih =>
      exact (ofWire_eq_error_of_binary operation).mpr
        (.inl (operand_of_error argument he ih))
  | second op operation read reads argument inner ih =>
      exact (ofWire_eq_error_of_binary operation).mpr
        (.inr ⟨_, operand_eq_ok.mpr ⟨_, read, reads.ofWire⟩, operand_of_error argument he ih⟩)

theorem exists_of_operand {operation key : String} (h : operand d operation key = .error e)
    (he : (ScoringError.wire e).isRefusal = false) :
    ∃ a, d.get? key = some a ∧ ofWire a = .error e := by
  rcases operand_eq_error h with rfl | hargument
  · cases he
  · exact hargument

theorem exists_trips (h : ofWire d = .error e)
    (he : (ScoringError.wire e).isRefusal = false) : ∃ n, Reached n d ∧ Trips n e := by
  induction d using Datum.get?_induction with
  | step d ih =>
      cases selects d with
      | constant operation =>
          rw [ofWire_of_constant operation] at h
          rcases constantOfWire_eq_error h with rfl | ⟨rfl, i, hvalue, hrange⟩ | ⟨rfl, hkind, hlong⟩
          · cases he
          · exact ⟨d, .here, .large operation (eq_some_of_getD hvalue (by simp)) hrange⟩
          · have hvalue := eq_some_of_getD rfl (Datum.ne_null_of_undisplayable hlong)
            exact ⟨d, .here, .longConstant operation hvalue hkind hlong⟩
      | «variable» operation =>
          rw [ofWire_of_variable operation] at h
          rcases variableOfWire_eq_error h with rfl | ⟨rfl, hlong⟩
          · cases he
          · have hvalue := eq_some_of_getD rfl (Datum.ne_null_of_undisplayable hlong)
            exact ⟨d, .here, .longVariable operation hvalue hlong⟩
      | ceiling operation =>
          rw [ofWire_eq_error_of_ceiling operation] at h
          obtain ⟨a, ha, hinner⟩ := exists_of_operand h he
          obtain ⟨n, hreached, htrips⟩ := ih _ a ha hinner
          exact ⟨n, .argument operation ha hreached, htrips⟩
      | binary op operation =>
          rcases (ofWire_eq_error_of_binary operation).mp h with hfirst | ⟨left, hleft, hsecond⟩
          · obtain ⟨a, ha, hinner⟩ := exists_of_operand hfirst he
            obtain ⟨n, hreached, htrips⟩ := ih _ a ha hinner
            exact ⟨n, .first op operation ha hreached, htrips⟩
          · obtain ⟨a, ha, hread⟩ := operand_eq_ok.mp hleft
            obtain ⟨b, hb, hinner⟩ := exists_of_operand hsecond he
            obtain ⟨n, hreached, htrips⟩ := ih _ b hb hinner
            exact ⟨n, .second op operation ha (readsAs_of_ofWire hread) hb hreached, htrips⟩
      | composite operation composite =>
          rw [ofWire_of_composite operation composite] at h
          obtain rfl := Except.error.inj h
          exact ⟨d, .here, .composite operation composite⟩
      | shapeless shape =>
          rw [ofWire_of_shapeless shape] at h
          rcases refuse_eq_error h with rfl | ⟨rfl, hlong⟩
          · cases he
          · exact ⟨d, .here, .longValue shape hlong⟩
      | integer operation =>
          rw [ofWire_of_integer operation] at h
          rcases refuse_eq_error h with rfl | ⟨rfl, hlong⟩
          · cases he
          · exact ⟨d, .here, .longOperation operation hlong⟩
      | unknown refused =>
          rw [refused] at h
          obtain rfl := Except.error.inj h
          cases he

end

/-- Reading gives a calculation just for what the grammar has, and that calculation; its
operations are those that `ofSymbol` lets pass, which never stops reading. -/
theorem ofWire_grammar (d : Datum) :
    (∀ c, ofWire d = .ok c ↔ ReadsAs d c) ∧
    (∀ c, ofWire d = .ok c → ∀ op a b, binary op a b ∈ c.parts →
      ofSymbol op.symbol a b = .ok (binary op a b)) ∧
    ∀ e, ofWire d ≠ .error (.operator e) := by
  refine ⟨fun c => ofWire_eq_ok, fun c _ op a b _ => ofSymbol_symbol op a b, fun e he => ?_⟩
  obtain ⟨n, -, htrips⟩ := exists_trips he rfl
  cases htrips

/-- What is not a calculation is refused with an error of its own, unless reading comes to a
value that it trips over; then the error is the one it trips with. -/
theorem ofWire_refuses (d : Datum) :
    ((∀ n e, Reached n d → ¬ Trips n e) ↔
      (∃ c, ofWire d = .ok c) ∨
        ∃ e, ofWire d = .error e ∧ (ScoringError.wire e).isRefusal = true) ∧
    ∀ e, (∃ n, Reached n d ∧ Trips n e) ↔
      ofWire d = .error e ∧ (ScoringError.wire e).isRefusal = false := by
  have htrips : ∀ e, (∃ n, Reached n d ∧ Trips n e) ↔
      ofWire d = .error e ∧ (ScoringError.wire e).isRefusal = false := by
    intro e
    constructor
    · rintro ⟨n, hreached, htrips⟩
      exact ⟨ofWire_of_reached hreached htrips, htrips.isRefusal⟩
    · rintro ⟨h, he⟩
      exact exists_trips h he
  refine ⟨?_, htrips⟩
  constructor
  · intro hnone
    cases hread : ofWire d with
    | ok c => exact .inl ⟨c, rfl⟩
    | error e =>
        refine .inr ⟨e, rfl, ?_⟩
        cases hrefusal : (ScoringError.wire e).isRefusal with
        | true => rfl
        | false =>
            obtain ⟨n, hreached, htrip⟩ := (htrips e).mpr ⟨hread, hrefusal⟩
            exact absurd htrip (hnone n e hreached)
  · rintro houtcome n e hreached htrip
    have herror := ofWire_of_reached hreached htrip
    have hrefusal := htrip.isRefusal
    rw [herror] at houtcome
    rcases houtcome with ⟨c, hc⟩ | ⟨e', he', hrefused⟩
    · cases hc
    · obtain rfl := Except.error.inj he'
      rw [hrefusal] at hrefused
      cases hrefused

/-- An operation that is a list, a constant past the range and a number that is too long are
not refused. -/
theorem listOperation_not_refused :
    (∃ e, ofWire (.map [(.text "operation", .list [])]) = .error e ∧
      (ScoringError.wire e).isRefusal = false) ∧
    (∃ e, ofWire (.map [(.text "operation", .text "Constant"),
        (.text "constant", .integer (.ofNat (Nat.pow 10 400)))]) = .error e ∧
      (ScoringError.wire e).isRefusal = false) ∧
    ∃ e, ofWire (.integer (.ofNat (Nat.pow 10 4300))) = .error e ∧
      (ScoringError.wire e).isRefusal = false := by
  have hlist : Trips (.map [(.text "operation", .list [])]) .compositeOperation := by
    have hcomposite : (Datum.list []).isComposite = true := rfl
    apply Trips.composite _ hcomposite
    simp [Datum.get?_cons]
  have hlarge : ∀ i, Binary64.ofInt? i = none →
      Trips (.map [(.text "operation", .text "Constant"), (.text "constant", .integer i)])
        .constantTooLarge := by
    intro i hi
    apply Trips.large _ _ hi
    · simp [Datum.get?_cons]
    · simp [Datum.get?_cons]
  have hlarge := hlarge (.ofNat (Nat.pow 10 400)) (by decide +kernel)
  have hlong : ∀ i, (Datum.integer i).isDisplayable = false →
      Trips (.integer i) .undisplayable := by
    intro i hi
    exact .longValue (by simp) hi
  have hlong := hlong (.ofNat (Nat.pow 10 4300)) (by decide +kernel)
  exact ⟨⟨_, hlist.ofWire, hlist.isRefusal⟩, ⟨_, hlarge.ofWire, hlarge.isRefusal⟩,
    ⟨_, hlong.ofWire, hlong.isRefusal⟩⟩

end ApneaScoring.Calculation
