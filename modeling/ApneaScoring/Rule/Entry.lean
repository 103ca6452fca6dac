import ApneaScoring.Attempt
import ApneaScoring.Rule.Error

namespace ApneaScoring

structure EntryFields where
  id : String
  reason : String
  shortReason : String
  card : Card := .yellow
  calculation : Option Calculation := none
  /-- The label of the judge's input; none for an entry that takes no input. -/
  inputName : Option String := none
  inputUnit : Option String := none
deriving DecidableEq

structure Entry extends EntryFields where
  card_ne_white : card ≠ .white := by decide
  calculated : inputName.isSome → calculation.isSome := by decide
deriving DecidableEq

def EntryFields.check (fields : EntryFields) : Except RuleError Entry :=
  if hcard : fields.card = .white then .error (.whiteEntry fields.id)
  else if hinput : fields.inputName.isSome → fields.calculation.isSome then
    .ok { fields with card_ne_white := hcard, calculated := hinput }
  else .error (.inputWithoutCalculation fields.id)

namespace Entry

def hasInput (e : Entry) : Bool :=
  e.inputName.isSome

def isCardOnly (e : Entry) : Bool :=
  e.calculation.isNone

/-- The number in a judge's input, which must be finite and above zero. -/
def acceptInput (e : Entry) (given : Datum) : Except RuleError Binary64 :=
  match given.positive? with
  | .ok (some x) => .ok x
  | .ok none => .error (given.refusal (.invalidInput e.id given e.inputName) .undisplayable)
  | .error _ => .error .inputTooLarge

/-- The input recorded with the penalization: only a declared one is looked at. -/
def ruleInput (e : Entry) (given : Datum) : Except RuleError (Option Binary64) :=
  if e.hasInput then (e.acceptInput given).map some else .ok none

def penalization (e : Entry) (ruleInput : Option Binary64) (delta : Performance) :
    Penalization where
  id := e.id
  reason := e.reason
  shortReason := e.shortReason
  ruleInput := ruleInput
  delta := delta
  card := e.card

def build (e : Entry) (given : Datum) (realized : Performance)
    (target : Option Component) : Except RuleError Penalization :=
  match e.calculation with
  | none => .ok (e.penalization none .empty)
  | some calculation => do
      let input ← e.ruleInput given
      let delta ← calculation.run { input, realized }
      match target with
      | some component => .ok (e.penalization input (.only component delta))
      | none => .error .absentComponent

end Entry

end ApneaScoring
