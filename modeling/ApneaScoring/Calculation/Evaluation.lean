import ApneaScoring.Calculation.Basic
import ApneaScoring.Performance

namespace ApneaScoring

structure Variables where
  input : Option Binary64 := none
  announced : Performance := {}
  realized : Performance := {}
deriving DecidableEq

/-- Variables are named for what they hold; points are not among them. -/
def Variables.get? (vars : Variables) : String → Option Binary64
  | "Input" => vars.input
  | "AnnouncedDuration" => vars.announced.duration
  | "AnnouncedDistance" => vars.announced.distance
  | "AnnouncedDepth" => vars.announced.depth
  | "RealizedDuration" => vars.realized.duration
  | "RealizedDistance" => vars.realized.distance
  | "RealizedDepth" => vars.realized.depth
  | _ => none

inductive EvaluationError
  | tooLarge
  | ceilingOfInfinity
  | ceilingOfNaN
deriving DecidableEq

def EvaluationError.message : EvaluationError → String
  | tooLarge => "int too large to convert to float"
  | ceilingOfInfinity => "cannot convert float infinity to integer"
  | ceilingOfNaN => "cannot convert float NaN to integer"

namespace Binary64

def ofInt (i : Int) : Binary64 :=
  ofRatio (i < 0) i.natAbs 1

def roundInt (negative : Bool) (units : Nat) : Int :=
  signedUnits negative (nearestEven units unitsPerOne)

def ceilInt (negative : Bool) (units : Nat) : Int :=
  -(Int.fdiv (-signedUnits negative units) unitsPerOne)

/-- The distance, absolute or relative, within which two numbers count as equal. -/
def tolerance : Binary64 :=
  ofDecimal false 1 (-12)

def isClose (a b : Binary64) : Bool :=
  let distance := (b - a).abs
  a.eqv b || distance.le (tolerance * b).abs || distance.le (tolerance * a).abs ||
    distance.le tolerance

/-- The least whole number not below, except that a number close to a whole one is
that one: a product meant to be 3 may come out a little above. -/
def tolerantCeiling : Binary64 → Except EvaluationError Binary64
  | finite s u h =>
      let nearest := ofInt (roundInt s u)
      .ok (if (finite s u h).isClose nearest then nearest else ofInt (ceilInt s u))
  | infinite _ => .error .ceilingOfInfinity
  | nan => .error .ceilingOfNaN

end Binary64

def Operator.apply : Operator → Binary64 → Binary64 → Option Binary64
  | plus, a, b => some (a + b)
  | minus, a, b => some (a - b)
  | multiply, a, b => some (a * b)
  | divide, a, b => if b.isZero then none else some (a / b)

namespace Calculation

def combine (op : Operator) : Option Binary64 → Option Binary64 → Option Binary64
  | some a, some b => op.apply a b
  | _, _ => none

def ceilingOf : Option Binary64 → Except EvaluationError (Option Binary64)
  | some x => x.tolerantCeiling.map some
  | none => .ok none

def literal (value : Literal) : Except EvaluationError (Option Binary64) :=
  match value.toNumber with
  | .ok x => .ok (some x)
  | .error _ => .error .tooLarge

/-- Both operands are evaluated, the left one first, before either is used. -/
def evaluate (vars : Variables) : Calculation → Except EvaluationError (Option Binary64)
  | constant value => literal value
  | .variable name => .ok (vars.get? name)
  | ceiling argument => argument.evaluate vars >>= ceilingOf
  | binary op a b => do
      let left ← a.evaluate vars
      let right ← b.evaluate vars
      return combine op left right
  | foreign _ => .ok none

section

variable {vars : Variables} {a b : Calculation}

theorem evaluate_ceiling_eq_ok {result : Option Binary64} :
    (ceiling a).evaluate vars = .ok result ↔
      ∃ value, a.evaluate vars = .ok value ∧ ceilingOf value = .ok result := by
  simp only [evaluate]
  cases a.evaluate vars <;> simp [bind, Except.bind]

theorem evaluate_ceiling_eq_error {e : EvaluationError} :
    (ceiling a).evaluate vars = .error e ↔ a.evaluate vars = .error e ∨
      ∃ value, a.evaluate vars = .ok value ∧ ceilingOf value = .error e := by
  simp only [evaluate]
  cases a.evaluate vars <;> simp [bind, Except.bind]

theorem evaluate_binary_eq_ok {op : Operator} {result : Option Binary64} :
    (binary op a b).evaluate vars = .ok result ↔ ∃ left right, a.evaluate vars = .ok left ∧
      b.evaluate vars = .ok right ∧ combine op left right = result := by
  simp only [evaluate]
  cases a.evaluate vars with
  | error e => simp [bind, Except.bind]
  | ok left => cases b.evaluate vars <;> simp [bind, Except.bind, pure, Except.pure]

theorem evaluate_binary_eq_error {op : Operator} {e : EvaluationError} :
    (binary op a b).evaluate vars = .error e ↔ a.evaluate vars = .error e ∨
      ∃ left, a.evaluate vars = .ok left ∧ b.evaluate vars = .error e := by
  simp only [evaluate]
  cases a.evaluate vars with
  | error e => simp [bind, Except.bind]
  | ok left => cases b.evaluate vars <;> simp [bind, Except.bind, pure, Except.pure]

theorem ceilingOf_eq_error {value : Option Binary64} {e : EvaluationError} :
    ceilingOf value = .error e ↔ ∃ x, value = some x ∧ x.tolerantCeiling = .error e := by
  cases value with
  | none => simp [ceilingOf]
  | some x => cases hx : x.tolerantCeiling <;> simp [ceilingOf, Except.map, hx]

end

end Calculation

end ApneaScoring
