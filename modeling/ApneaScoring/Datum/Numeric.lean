import ApneaScoring.Datum.Basic
import ApneaScoring.Datum.Display
import ApneaScoring.Number.Decimal

namespace ApneaScoring

inductive NumberError
  | notNumeric (text : String)
  | wrongKind
  | tooLarge
deriving DecidableEq

def NumberError.message? : NumberError → Option String
  | .notNumeric s => some ("could not convert string to float: " ++ Text.quoted s)
  | .wrongKind => none
  | .tooLarge => some "int too large to convert to float"

namespace Binary64

def ofInteger (i : Int) : Except NumberError Binary64 :=
  match ofInt? i with
  | some x => .ok x
  | none => .error .tooLarge

/-- The body is opened before it is given an integer: `ofInt?` of a variable is not to be
evaluated. -/
theorem ofInteger_eq (i : Int) : ofInteger i = (ofInt? i).elim (.error .tooLarge) .ok := by
  have hopen : ofInteger = ofInteger := rfl
  conv at hopen =>
    rhs
    delta ofInteger
  rw [hopen]
  dsimp only
  generalize ofInt? i = x
  cases x <;> rfl

def one : Binary64 := ofRatio false 1 1

end Binary64

namespace Datum

def toNumber : Datum → Except NumberError Binary64
  | bool b => .ok (if b then .one else .zero)
  | integer i => Binary64.ofInteger i
  | float x => .ok x
  | text s => match Binary64.ofText? s with
      | some x => .ok x
      | none => .error (.notNumeric s)
  | _ => .error .wrongKind

/-- The number a value stands for. A truth value stands for none, and only an
integer past the binary64 range fails. -/
def number? : Datum → Except NumberError (Option Binary64)
  | bool _ => .ok none
  | d => match d.toNumber with
      | .ok x => .ok (some x)
      | .error .tooLarge => .error .tooLarge
      | .error _ => .ok none

/-- The measurement in a value; NaN is none. -/
def measure? (d : Datum) : Except NumberError (Option Binary64) :=
  d.number?.map (·.filter (!·.isNaN))

/-- The finite number above zero that a value stands for. -/
def positive? (d : Datum) : Except NumberError (Option Binary64) :=
  d.number?.map (·.filter fun x => x.isFinite && Binary64.zero.lt x)

def isPositive (d : Datum) : Except NumberError Bool :=
  d.positive?.map (·.isSome)

end Datum

end ApneaScoring
