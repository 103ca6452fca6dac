import ApneaScoring.Datum.Numeric

namespace ApneaScoring

inductive Operator
  | plus
  | minus
  | multiply
  | divide
deriving DecidableEq, Repr

namespace Operator

def all : List Operator := [.plus, .minus, .multiply, .divide]

def symbol : Operator → String
  | plus => "+"
  | minus => "-"
  | multiply => "*"
  | divide => "/"

def name : Operator → String
  | plus => "Plus"
  | minus => "Minus"
  | multiply => "Multiply"
  | divide => "Divide"

def ofSymbol? (s : String) : Option Operator :=
  all.find? (·.symbol == s)

def ofName? (s : String) : Option Operator :=
  all.find? (·.name == s)

@[simp] theorem ofName?_name (op : Operator) : ofName? op.name = some op := by
  cases op <;> rfl

@[simp] theorem ofSymbol?_symbol (op : Operator) : ofSymbol? op.symbol = some op := by
  cases op <;> rfl

theorem name_of_ofName? {s : String} {op : Operator} (h : ofName? s = some op) :
    op.name = s := by
  simpa using List.find?_some h

end Operator

/-- A number as a calculation holds it: whole numbers keep their kind. -/
inductive Literal
  | integer (value : Int)
  | float (value : Binary64)
deriving DecidableEq

namespace Literal

def toDatum : Literal → Datum
  | integer i => .integer i
  | float x => .float x

def ofDatum? : Datum → Option Literal
  | .integer i => some (integer i)
  | .float x => some (float x)
  | _ => none

def toNumber : Literal → Except NumberError Binary64
  | integer i => Binary64.ofInteger i
  | float x => .ok x

@[simp] theorem ofDatum?_toDatum (value : Literal) : ofDatum? value.toDatum = some value := by
  cases value <;> rfl

theorem toNumber_near {i : Int} {x : Binary64} (h : Binary64.ofInt? i = some x) :
    (integer i).toNumber = .ok x := by
  rw [toNumber, Binary64.ofInteger_eq, h, Option.elim_some]

theorem toNumber_large {i : Int} (h : Binary64.ofInt? i = none) :
    (integer i).toNumber = .error .tooLarge := by
  rw [toNumber, Binary64.ofInteger_eq, h, Option.elim_none]

def sameValue (a b : Literal) : Bool :=
  a == b || a.toDatum.sameNumber b.toDatum

end Literal

inductive Calculation
  | constant (value : Literal)
  | variable (name : String)
  | ceiling (argument : Calculation)
  | binary (op : Operator) (a b : Calculation)
  /-- A value that stands where a calculation should; it has no result. -/
  | foreign (value : Datum)
deriving DecidableEq

namespace Calculation

def ofNumber (value : Datum) : Except NumberError Calculation :=
  value.toNumber.map fun x => constant (.float x)

def display : Calculation → String
  | constant value => "Const(" ++ value.toDatum.display ++ ")"
  | .variable name => "Var(" ++ name ++ ")"
  | ceiling argument => "Ceil(" ++ argument.display ++ ")"
  | binary op a b => "(" ++ a.display ++ " " ++ op.symbol ++ " " ++ b.display ++ ")"
  | foreign value => value.display

def sameValue : Calculation → Calculation → Bool
  | constant a, constant b => a.sameValue b
  | .variable a, .variable b => a == b
  | ceiling a, ceiling b => a.sameValue b
  | binary op a b, binary op' a' b' => op == op' && a.sameValue a' && b.sameValue b'
  | foreign a, foreign b => a == b
  | _, _ => false

end Calculation

inductive CalculationError
  | unknownOperator (symbol : String)
deriving DecidableEq

namespace CalculationError

def message : CalculationError → String
  | unknownOperator symbol =>
      "BinaryOp: unknown operator '" ++ symbol ++ "'. Valid operators: " ++
        Datum.displayTexts ["*", "+", "-", "/"]

end CalculationError

def Calculation.ofSymbol (symbol : String) (a b : Calculation) :
    Except CalculationError Calculation :=
  match Operator.ofSymbol? symbol with
  | some op => .ok (.binary op a b)
  | none => .error (.unknownOperator symbol)

theorem Calculation.ofSymbol_symbol (op : Operator) (a b : Calculation) :
    ofSymbol op.symbol a b = .ok (binary op a b) := by
  simp only [ofSymbol, Operator.ofSymbol?_symbol]

end ApneaScoring
