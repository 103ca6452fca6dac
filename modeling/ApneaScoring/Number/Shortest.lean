import ApneaScoring.Number.Binary64

namespace ApneaScoring.Binary64

/-- A unit, `2 ^ (-1074)`, as a number of `10 ^ (-1074)`. -/
def decimalUnit : Nat := Nat.pow 5 1074

/-- A positive number as its significant digits and the power of ten of the first. -/
structure Digits where
  digits : List Char
  exponent : Int
deriving DecidableEq, Repr

def Digits.ofScaled (coefficient place : Nat) : Digits :=
  let digits := Nat.toDigits 10 coefficient
  { digits := (digits.reverse.dropWhile (· = '0')).reverse
    exponent := (digits.length : Int) - 1 + place - 1074 }

def decimalWidth (units : Nat) : Nat :=
  (Nat.toDigits 10 (units * decimalUnit)).length

def readsBack (units place coefficient : Nat) : Bool :=
  roundUnits (coefficient * Nat.pow 10 place) decimalUnit == units

/-- Of the two whole numbers beside a quotient, the one that `reads` accepts, or the
nearer if it accepts both. -/
def beside? (reads : Nat → Bool) (num den : Nat) : Option Nat :=
  let below := num / den
  match reads below, reads (below + 1) with
  | true, true => some (nearestEven num den)
  | true, false => some below
  | false, true => some (below + 1)
  | false, false => none

def neighbour? (units place : Nat) : Option Nat :=
  beside? (readsBack units place) (units * decimalUnit) (Nat.pow 10 place)

def shortestDigits (units : Nat) : Digits :=
  let width := decimalWidth units
  let found := (List.range 17).findSome? fun n =>
    let place := width - (n + 1)
    (neighbour? units place).map (Digits.ofScaled · place)
  found.getD (Digits.ofScaled (units * decimalUnit) 0)

def roundedDigits (count units : Nat) : Digits :=
  let place := decimalWidth units - count
  Digits.ofScaled (nearestEven (units * decimalUnit) (Nat.pow 10 place)) place

end ApneaScoring.Binary64
