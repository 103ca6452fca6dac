import ApneaScoring.Attempt

namespace ApneaScoring

namespace Binary64

/-- NaN ties with every number. -/
def order (a b : Binary64) : Ordering :=
  if a.lt b then .lt else if b.lt a then .gt else .eq

/-- A value to compare; an absent one and either zero are zero. -/
def orZero : Option Binary64 → Binary64
  | some x => if x.isZero then zero else x
  | none => zero

end Binary64

inductive Direction
  | ascending
  | descending
deriving DecidableEq, Repr

namespace Direction

def name : Direction → String
  | ascending => "asc"
  | descending => "desc"

def ofName? (s : String) : Option Direction :=
  [ascending, descending].find? (·.name == s)

def apply : Direction → Ordering → Ordering
  | ascending, o => o
  | descending, o => o.swap

end Direction

inductive Criterion
  | final (component : Component)
  /-- How far the realized component is from the announced one. -/
  | deviation (component : Component)
deriving DecidableEq, Repr

def deviation (component : Component) (s : Standing) : Binary64 :=
  (Binary64.orZero (s.realized.get component) -
    Binary64.orZero (s.announced.get component)).abs

namespace Criterion

def value : Criterion → Standing → Binary64
  | final component, s => Binary64.orZero (s.final.get component)
  | .deviation component, s => ApneaScoring.deviation component s

def compare (criterion : Criterion) (a b : Standing) : Ordering :=
  (criterion.value a).order (criterion.value b)

def display : Criterion → String
  | final component => "Final(" ++ component.name ++ ")"
  | .deviation component => "Diff(" ++ component.name ++ ")"

end Criterion

inductive Comparator
  | tie
  | thenBy (earlier : Comparator) (direction : Direction) (criterion : Criterion)
  | thenChain (earlier : Comparator) (direction : Direction) (inner : Comparator)
deriving DecidableEq

namespace Comparator

def compare : Comparator → Standing → Standing → Ordering
  | tie, _, _ => .eq
  | thenBy earlier direction criterion, a, b =>
      (earlier.compare a b).then (direction.apply (criterion.compare a b))
  | thenChain earlier direction inner, a, b =>
      (earlier.compare a b).then (direction.apply (inner.compare a b))

/-- What each link of the chain says by itself, its direction set aside. -/
def outcomes : Comparator → Standing → Standing → List Ordering
  | tie, _, _ => []
  | thenBy earlier _ criterion, a, b => earlier.outcomes a b ++ [criterion.compare a b]
  | thenChain earlier _ inner, a, b => earlier.outcomes a b ++ [inner.compare a b]

def descending (c : Comparator) (criterion : Criterion) : Comparator :=
  c.thenBy .descending criterion

def ascending (c : Comparator) (criterion : Criterion) : Comparator :=
  c.thenBy .ascending criterion

def enclose (links : List String) : String :=
  if links.isEmpty then "Composite(<tie>)"
  else "Composite(" ++ ", ".intercalate links ++ ")"

def displayLinks : Comparator → List String
  | tie => []
  | thenBy earlier direction criterion =>
      earlier.displayLinks ++ [direction.name ++ " " ++ criterion.display]
  | thenChain earlier direction inner =>
      earlier.displayLinks ++ [direction.name ++ " " ++ enclose inner.displayLinks]

def display (c : Comparator) : String :=
  enclose c.displayLinks

@[simp] theorem compare_tie (a b : Standing) : tie.compare a b = .eq := rfl

@[simp] theorem compare_thenBy (c : Comparator) (d : Direction) (k : Criterion)
    (a b : Standing) :
    (c.thenBy d k).compare a b = (c.compare a b).then (d.apply (k.compare a b)) := rfl

@[simp] theorem compare_thenChain (c : Comparator) (d : Direction) (inner : Comparator)
    (a b : Standing) :
    (c.thenChain d inner).compare a b =
      (c.compare a b).then (d.apply (inner.compare a b)) := rfl

end Comparator

end ApneaScoring
