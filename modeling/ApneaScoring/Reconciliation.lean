import ApneaScoring.Rule.Basic

namespace ApneaScoring

def Performance.ofComponents (value : Component → Option Binary64) : Performance where
  duration := value .duration
  depth := value .depth
  distance := value .distance
  points := value .points

@[simp] theorem Performance.get_ofComponents (value : Component → Option Binary64)
    (c : Component) : (Performance.ofComponents value).get c = value c := by
  cases c <;> rfl

/-- The card of an attempt: the most severe of the judge's and the penalizations'. -/
def penalizationsCard (penalizations : List Penalization) (judge : Card) : Card :=
  Card.combineAll (judge :: penalizations.map (·.card))

def deduction (penalizations : List Penalization) (c : Component) : Binary64 :=
  (penalizations.map fun p => Binary64.orZero (p.delta.get c)).foldl (· + ·) .zero

def Binary64.floored (x : Binary64) : Binary64 :=
  if Binary64.zero.lt x then x else .zero

def finalComponent (realized : Performance) (penalizations : List Penalization)
    (card : Card) (target : Option Component) (measured : Component → Bool)
    (c : Component) : Option Binary64 :=
  if measured c then
    (realized.get c).map fun value =>
      if target = some c ∧ card = .red then .zero
      else (value - deduction penalizations c).floored
  else none

def finalPerformance (realized : Performance) (penalizations : List Penalization)
    (card : Card) (target : Option Component)
    (measured : Component → Bool) : Performance :=
  .ofComponents (finalComponent realized penalizations card target measured)

/-- The final performance under a rule, whatever the rule measures. -/
def Rule.reconcile (r : Rule) (realized : Performance)
    (penalizations : List Penalization) (card : Card) : Performance :=
  finalPerformance realized penalizations card r.target fun _ => true

end ApneaScoring
