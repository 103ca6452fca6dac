import ApneaScoring.Comparator
import ApneaScoring.Rule.Entry

namespace ApneaScoring

structure RuleFields where
  name : String
  primary : Option Component := none
  hasPoints : Bool := false
  hasDuration : Bool := false
  hasDepth : Bool := false
  hasDistance : Bool := false
  penalizations : List Entry := []
  pointsCalculation : Option Calculation := none
  shortCalculation : Option Calculation := none
  comparator : Comparator := .tie
deriving DecidableEq

def RuleFields.ids (fields : RuleFields) : List String :=
  fields.penalizations.map (·.id)

structure Rule extends RuleFields where
  ids_nodup : toRuleFields.ids.Nodup := by decide
  points_calculated : hasPoints → pointsCalculation.isSome := by decide
deriving DecidableEq

def RuleFields.check (fields : RuleFields) : Except RuleError Rule :=
  if hids : fields.ids.Nodup then
    if hpoints : fields.hasPoints → fields.pointsCalculation.isSome then
      .ok { fields with ids_nodup := hids, points_calculated := hpoints }
    else .error (.pointsWithoutCalculation fields.name)
  else .error (.duplicateIds fields.name fields.ids)

/-- What an attempt fell short by: the announced and the realized primary component. -/
structure Shortfall where
  announced : Binary64
  realized : Binary64
deriving DecidableEq

namespace Rule

/-- Answers for every name that no rule has: nothing is awarded, deducted or ordered. -/
def unknown : Rule where
  name := "?"
  hasDuration := true
  hasDepth := true
  hasDistance := true

def isUnknown (r : Rule) : Bool :=
  r.name == unknown.name

/-- The component that deductions are taken from. -/
def target (r : Rule) : Option Component :=
  if r.hasPoints then some .points else r.primary

def measures (r : Rule) : Component → Bool
  | .duration => r.hasDuration
  | .depth => r.hasDepth
  | .distance => r.hasDistance
  | .points => r.hasPoints

def entry? (r : Rule) (id : Datum) : Option Entry :=
  r.penalizations.find? fun e => Datum.text e.id == id

def entry (r : Rule) (id : Datum) : Except RuleError Entry :=
  match r.entry? id with
  | some e => .ok e
  | none => .error (id.refusal (.unknownPenalization id r.name r.ids) .undisplayable)

/-- The points of a realized performance; zero where the calculation has no result. -/
def points (r : Rule) (realized : Performance) : Except RuleError Binary64 :=
  if r.hasPoints then
    match r.pointsCalculation with
    | some calculation => do
        let result ← calculation.run { realized }
        return result.getD .zero
    | none => .ok .zero
  else .error (.unsupportedPoints r.name)

def penalize (r : Rule) (id : Datum) (given : Datum) (realized : Performance) :
    Except RuleError Penalization := do
  let e ← r.entry id
  e.build given realized r.target

/-- Whether and by what an attempt is short. An absent value counts as zero. -/
def shortfall? (r : Rule) (announced realized : Performance) : Option Shortfall := do
  let primary ← r.primary
  let _ ← r.shortCalculation
  let a := Binary64.orZero (announced.get primary)
  let b := Binary64.orZero (realized.get primary)
  if a.le b then none else some ⟨a, b⟩

def shortPenalization (target : Component) (delta : Option Binary64) : Penalization where
  id := Penalization.shortId
  reason := Penalization.shortReasonText
  shortReason := ""
  isShort := true
  delta := .only target delta
  card := .yellow

def short? (r : Rule) (announced realized : Performance) :
    Except RuleError (Option Penalization) :=
  match r.primary, r.target, r.shortCalculation, r.shortfall? announced realized with
  | some primary, some target, some calculation, some shortfall => do
      let delta ← calculation.run
        { announced := announced.set primary (some shortfall.announced)
          realized := realized.set primary (some shortfall.realized) }
      return some (shortPenalization target delta)
  | _, _, _, _ => .ok none

def display (r : Rule) : String :=
  let primary := match r.primary with
    | some component => component.name
    | none => "-"
  "RuleDefinition(" ++ r.name ++ ", primary=" ++ primary ++ ", points=" ++
    (Datum.bool r.hasPoints).display ++ ")"

end Rule

end ApneaScoring
