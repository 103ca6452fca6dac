import ApneaScoring.Calculation.Basic

namespace ApneaScoring

inductive WireError
  | notAnObject (given : Datum)
  | unknownOperation (given : Datum)
  | compositeOperation
  | constantNotNumeric (given : Datum)
  | constantTooLarge
  | unnamedVariable (given : Datum)
  | missingArgument (operation key : String)
  /-- The value that is refused holds an integer too long to be displayed. -/
  | undisplayable
  | operator (error : CalculationError)
  | notACalculation (kind : String)
deriving DecidableEq

namespace WireError

def operations : List String :=
  ["Ceiling", "Constant", "Divide", "Minus", "Multiply", "Plus", "Variable"]

def message? : WireError → Option String
  | notAnObject given => some <|
      "Invalid calculation: " ++ given.display ++
        ". Expected a dict with an 'operation' key."
  | unknownOperation given => some <|
      "Unknown calculation operation " ++ given.display ++ ". Valid operations: " ++
        Datum.displayTexts operations
  | compositeOperation => none
  | constantNotNumeric given =>
      some ("Constant requires a numeric 'constant', got " ++ given.display)
  | constantTooLarge => some "int too large to convert to float"
  | unnamedVariable given =>
      some ("Variable requires a 'variable' name, got " ++ given.display)
  | missingArgument operation key => some (operation ++ " requires '" ++ key ++ "'")
  | undisplayable => some Datum.undisplayableText
  | operator error => some error.message
  | notACalculation kind => some ("Unknown calculation node type: " ++ kind)

end WireError

namespace Calculation

def wireMap (operation : String) (fields : List (String × Datum)) : Datum :=
  .map ((.text "operation", .text operation) ::
    fields.map fun field => (.text field.1, field.2))

def toWire : Calculation → Except WireError Datum
  | constant value => .ok (wireMap "Constant" [("constant", value.toDatum)])
  | .variable name => .ok (wireMap "Variable" [("variable", .text name)])
  | ceiling argument => do
      let a ← argument.toWire
      return wireMap "Ceiling" [("argumentA", a)]
  | binary op a b => do
      let a ← a.toWire
      let b ← b.toWire
      return wireMap op.name [("argumentA", a), ("argumentB", b)]
  | foreign .null => .ok .null
  | foreign value => .error (.notACalculation value.kindName)

def refuse (given : Datum) (error : WireError) : Except WireError Calculation :=
  .error (given.refusal error .undisplayable)

def constantOfWire (value : Datum) : Except WireError Calculation :=
  match Literal.ofDatum? value with
  | none => refuse value (.constantNotNumeric value)
  | some literal => match literal.toNumber with
      | .ok x => .ok (constant (.float x))
      | .error _ => .error .constantTooLarge

def variableOfWire : Datum → Except WireError Calculation
  | .text name =>
      if name.isEmpty then .error (.unnamedVariable (.text name)) else .ok (.variable name)
  | value => refuse value (.unnamedVariable value)

abbrev Arguments := List (String × Except WireError Calculation)

/-- What an operation takes from a key; a null value is no argument. -/
def argument (data : Datum) (arguments : Arguments) (operation key : String) :
    Except WireError Calculation :=
  match (data.get? key).getD .null with
  | .null => .error (.missingArgument operation key)
  | _ => (arguments.lookup key).getD (.error (.missingArgument operation key))

def assemble (data : Datum) (arguments : Arguments) : Except WireError Calculation :=
  match (data.get? "operation").getD .null with
  | .text "Constant" => constantOfWire ((data.get? "constant").getD .null)
  | .text "Variable" => variableOfWire ((data.get? "variable").getD .null)
  | .text "Ceiling" => do
      let a ← argument data arguments "Ceiling" "argumentA"
      return ceiling a
  | .text operation => match Operator.ofName? operation with
      | some op => do
          let a ← argument data arguments operation "argumentA"
          let b ← argument data arguments operation "argumentB"
          (ofSymbol op.symbol a b).mapError .operator
      | none => .error (.unknownOperation (.text operation))
  | .list _ => .error .compositeOperation
  | .map _ => .error .compositeOperation
  | given => refuse given (.unknownOperation given)

mutual

def ofWire : Datum → Except WireError Calculation
  | .map entries => assemble (.map entries) (argumentsOf entries)
  | data => refuse data (.notAnObject data)

def argumentsOf : List (Datum × Datum) → Arguments
  | [] => []
  | entry :: entries => argumentOf entry ++ argumentsOf entries

def argumentOf : Datum × Datum → Arguments
  | (.text key, value) => [(key, ofWire value)]
  | _ => []

end

end Calculation

end ApneaScoring
