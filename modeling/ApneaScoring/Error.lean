import ApneaScoring.Calculation.Wire
import ApneaScoring.Rule.Error
import ApneaScoring.Yaml.Error

namespace ApneaScoring

inductive ScoringError
  | number (error : NumberError)
  | calculation (error : CalculationError)
  | evaluation (error : EvaluationError)
  | wire (error : WireError)
  | rule (error : RuleError)
  | unknownComponent (given : Option String)
  | yaml (error : Yaml.Error)
deriving DecidableEq

namespace ScoringError

def componentMessage (given : Option String) : String :=
  let shown := match given with
    | some text => Text.quoted text
    | none => "None"
  "Unknown performance component " ++ shown ++ ". Valid: " ++
    Datum.displayTexts (Component.all.map (·.name))

/-- What is said of an error; an accident of kinds has no message. -/
def message? : ScoringError → Option String
  | number error => error.message?
  | calculation error => some error.message
  | evaluation error => some error.message
  | wire error => error.message?
  | rule error => error.message?
  | unknownComponent given => some (componentMessage given)
  | yaml .malformed => some "Invalid calculation YAML"
  | yaml error => error.message?

/-- Whether the engine refused, and did not merely fail. -/
def isRefusal : ScoringError → Bool
  | wire .compositeOperation => false
  | wire .constantTooLarge => false
  | wire .undisplayable => false
  | wire (.operator _) => false
  | wire _ => true
  | rule (.unknownPenalization ..) => true
  | rule (.unsupportedPoints _) => true
  | rule (.invalidInput ..) => true
  | yaml .malformed => true
  | _ => false

end ScoringError

end ApneaScoring
