import ApneaScoring.Calculation.Evaluation

namespace ApneaScoring

inductive RuleError
  | whiteEntry (id : String)
  | inputWithoutCalculation (id : String)
  | duplicateIds (rule : String) (ids : List String)
  | pointsWithoutCalculation (rule : String)
  | unknownPenalization (id : Datum) (rule : String) (available : List String)
  | unsupportedPoints (rule : String)
  | invalidInput (id : String) (given : Datum) (label : Option String)
  | inputTooLarge
  /-- The id or the input that is refused holds an integer too long to be displayed. -/
  | undisplayable
  | absentComponent
  | evaluation (error : EvaluationError)
deriving DecidableEq

namespace RuleError

def labelText (label : Option String) : String :=
  match label with
  | some text => if text.isEmpty then "" else " (" ++ text ++ ")"
  | none => ""

def message? : RuleError → Option String
  | whiteEntry id => some ("Penalization '" ++ id ++ "' cannot carry a White card")
  | inputWithoutCalculation id =>
      some ("Penalization '" ++ id ++ "' declares an input but no calculation")
  | duplicateIds rule ids => some <|
      "Rule '" ++ rule ++ "': duplicate penalization ids in " ++ Datum.displayTexts ids
  | pointsWithoutCalculation rule =>
      some ("Rule '" ++ rule ++ "' awards points but has no points calculation")
  | unknownPenalization id rule available => some <|
      "Unknown penalization '" ++ id.plain ++ "' for rules '" ++ rule ++
        "'. Available: " ++ Datum.displayTexts available
  | unsupportedPoints rule =>
      some ("Operation 'get_points' is not supported for rules '" ++ rule ++ "'")
  | invalidInput id given label => some <|
      "Penalization '" ++ id ++ "' requires a positive input" ++ labelText label ++
        ", got " ++ given.display
  | inputTooLarge => some "int too large to convert to float"
  | undisplayable => some Datum.undisplayableText
  | absentComponent => none
  | evaluation error => some error.message

end RuleError

def Calculation.run (vars : Variables) (c : Calculation) :
    Except RuleError (Option Binary64) :=
  match c.evaluate vars with
  | .ok result => .ok result
  | .error e => .error (.evaluation e)

end ApneaScoring
