import ApneaScoring.Number.Decimal

namespace ApneaScoring.Number

open Text

def digitOf? (c : Char) : Option Nat :=
  if isDigit c then some (c.toNat - 48)
  else if 'a' ≤ c.toLower && c.toLower ≤ 'z' then some (c.toLower.toNat - 87)
  else none

def digitIn? (base : Nat) (c : Char) : Option Nat :=
  (digitOf? c).filter (· < base)

def baseLetter? : Nat → Option Char
  | 2 => some 'b'
  | 8 => some 'o'
  | 16 => some 'x'
  | _ => none

def pastBase (base : Nat) : List Char → List Char
  | '0' :: c :: rest => if baseLetter? base = some c.toLower then rest else '0' :: c :: rest
  | cs => cs

def numeralIn? (base : Nat) (digits : List Char) : Option Nat :=
  if digits.isEmpty then none
  else digits.foldlM (fun n c => (digitIn? base c).map (base * n + ·)) 0

def integerIn? (base : Nat) (cs : List Char) : Option Int := do
  let (negative, rest) :=
    Binary64.splitSign ((trimBoth Binary64.isNumberBlank cs).map Binary64.plainDigit)
  let n ← numeralIn? base (pastBase base rest)
  return if negative then -(n : Int) else n

end ApneaScoring.Number
