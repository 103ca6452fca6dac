/-! A finite value is a sign and a whole number of units of `2 ^ (-1074)`, so sums and comparisons
are those of integers and only `roundUnits` is approximate. -/

namespace ApneaScoring

def nearestEven (num den : Nat) : Nat :=
  let quotient := num / den
  let twice := 2 * (num % den)
  if twice < den then quotient
  else if den < twice then quotient + 1
  else quotient + quotient % 2

def unitsPerOne : Nat := Nat.pow 2 1074

/-- The first number of units past the finite range, `2 ^ 1024` in value. -/
def unitsBound : Nat := Nat.pow 2 2098

/-- At most 53 significant bits, within the finite range. -/
def Representable (units : Nat) : Prop :=
  units < unitsBound ∧ units % Nat.pow 2 (units.log2 - 52) = 0

instance (units : Nat) : Decidable (Representable units) := by
  unfold Representable
  infer_instance

/-- The spacing of the 53-bit numbers beside a magnitude. -/
def spacing (magnitude : Nat) : Nat :=
  Nat.pow 2 (magnitude.log2 - 52)

def roundUnits (num den : Nat) : Nat :=
  let step := spacing (num / den)
  nearestEven num (den * step) * step

inductive Binary64
  | finite (negative : Bool) (units : Nat) (representable : Representable units)
  | infinite (negative : Bool)
  | nan
deriving DecidableEq

namespace Binary64

theorem unitsBound_pos : 0 < unitsBound := by
  unfold unitsBound
  apply Nat.pow_pos
  decide

theorem representable_zero : Representable 0 :=
  ⟨unitsBound_pos, Nat.zero_mod _⟩

def zero : Binary64 := .finite false 0 representable_zero

instance : Inhabited Binary64 := ⟨zero⟩

/-- Rounding that has left the finite range gives an infinity. -/
def ofUnits (negative : Bool) (units : Nat) : Binary64 :=
  if h : Representable units then .finite negative units h else .infinite negative

def ofRatio (negative : Bool) (num den : Nat) : Binary64 :=
  ofUnits negative (roundUnits (num * unitsPerOne) den)

def isNaN : Binary64 → Bool
  | nan => true
  | _ => false

def isFinite : Binary64 → Bool
  | finite .. => true
  | _ => false

def negative : Binary64 → Bool
  | finite s _ _ => s
  | infinite s => s
  | nan => false

def neg : Binary64 → Binary64
  | finite s u h => finite (!s) u h
  | infinite s => infinite (!s)
  | nan => nan

def abs : Binary64 → Binary64
  | finite _ u h => finite false u h
  | infinite _ => infinite false
  | nan => nan

def signedUnits (negative : Bool) (units : Nat) : Int :=
  if negative then -units else units

/-- Where a number stands on the line, in units; NaN stands nowhere. The infinities
stand just past the finite values and the two zeros stand together. -/
def position? : Binary64 → Option Int
  | finite s u _ => some (signedUnits s u)
  | infinite s => some (signedUnits s unitsBound)
  | nan => none

def lt (a b : Binary64) : Bool :=
  match a.position?, b.position? with
  | some x, some y => x < y
  | _, _ => false

def le (a b : Binary64) : Bool :=
  match a.position?, b.position? with
  | some x, some y => x ≤ y
  | _, _ => false

/-- Equality of numbers: the zeros are equal and NaN equals nothing. -/
def eqv (a b : Binary64) : Bool :=
  match a.position?, b.position? with
  | some x, some y => x == y
  | _, _ => false

def isZero (a : Binary64) : Bool :=
  a.eqv zero

/-- The sum of two signed counts of units; an exact zero is negative only when both
terms are. -/
def addUnits (s : Bool) (u : Nat) (t : Bool) (v : Nat) : Binary64 :=
  let total := signedUnits s u + signedUnits t v
  let negative := if total = 0 then s && t else decide (total < 0)
  ofUnits negative (roundUnits total.natAbs 1)

def add : Binary64 → Binary64 → Binary64
  | nan, _ => nan
  | _, nan => nan
  | infinite s, infinite t => if s = t then infinite s else nan
  | infinite s, finite .. => infinite s
  | finite .., infinite t => infinite t
  | finite s u _, finite t v _ => addUnits s u t v

def sub (a b : Binary64) : Binary64 :=
  a.add b.neg

def mul : Binary64 → Binary64 → Binary64
  | nan, _ => nan
  | _, nan => nan
  | infinite s, infinite t => infinite (s ^^ t)
  | infinite s, finite t v _ => if v = 0 then nan else infinite (s ^^ t)
  | finite s u _, infinite t => if u = 0 then nan else infinite (s ^^ t)
  | finite s u _, finite t v _ => ofUnits (s ^^ t) (roundUnits (u * v) unitsPerOne)

def div : Binary64 → Binary64 → Binary64
  | nan, _ => nan
  | _, nan => nan
  | infinite _, infinite _ => nan
  | infinite s, finite t _ _ => infinite (s ^^ t)
  | finite s _ _, infinite t => finite (s ^^ t) 0 representable_zero
  | finite s u _, finite t v _ =>
      if v = 0 then if u = 0 then nan else infinite (s ^^ t)
      else ofUnits (s ^^ t) (roundUnits (u * unitsPerOne) v)

instance : Add Binary64 := ⟨add⟩
instance : Sub Binary64 := ⟨sub⟩
instance : Mul Binary64 := ⟨mul⟩
instance : Div Binary64 := ⟨div⟩
instance : Neg Binary64 := ⟨neg⟩

/-- The value nearest to an integer, if that is finite. -/
def ofInt? (i : Int) : Option Binary64 :=
  match ofRatio (i < 0) i.natAbs 1 with
  | .finite s u h => some (.finite s u h)
  | _ => none

/-- The value nearest to `coefficient * 10 ^ exponent`. Exponents that decide the
answer by themselves are not expanded. -/
def ofDecimal (negative : Bool) (coefficient : Nat) (exponent : Int) : Binary64 :=
  if coefficient = 0 then .finite negative 0 representable_zero
  else match exponent with
    | .ofNat e =>
        if 310 < e then .infinite negative
        else ofRatio negative (coefficient * Nat.pow 10 e) 1
    | .negSucc e =>
        if coefficient.log2 + 1080 < 3 * e then
          .finite negative 0 representable_zero
        else ofRatio negative coefficient (Nat.pow 10 (e + 1))

@[simp] theorem neg_neg (a : Binary64) : a.neg.neg = a := by
  cases a <;> simp [neg]

@[simp] theorem isFinite_neg (a : Binary64) : a.neg.isFinite = a.isFinite := by
  cases a <;> rfl

theorem signedUnits_not (negative : Bool) (units : Nat) :
    signedUnits (!negative) units = -signedUnits negative units := by
  cases negative <;> simp [signedUnits]

@[simp] theorem position?_neg (a : Binary64) :
    a.neg.position? = a.position?.map (- ·) := by
  cases a with
  | finite s u h => exact congrArg some (signedUnits_not s u)
  | infinite s => exact congrArg some (signedUnits_not s unitsBound)
  | nan => rfl

theorem position?_eq_none {a : Binary64} : a.position? = none ↔ a = nan := by
  cases a <;> simp [position?]

end Binary64

end ApneaScoring
