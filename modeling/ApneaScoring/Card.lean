namespace ApneaScoring

inductive Card
  | absent
  | didNotStart
  | white
  | yellow
  | red
deriving DecidableEq, Repr, Inhabited

namespace Card

def all : List Card := [.absent, .didNotStart, .white, .yellow, .red]

def name : Card → String
  | absent => ""
  | didNotStart => "DidNotStart"
  | white => "White"
  | yellow => "Yellow"
  | red => "Red"

/-- The card of a name; any other text names none. -/
def ofName (s : String) : Card :=
  (all.find? (·.name == s)).getD .absent

def label (card : Card) : String :=
  if card = .absent then "None" else card.name

def severity : Card → Nat
  | absent => 0
  | white => 1
  | didNotStart => 2
  | yellow => 3
  | red => 4

def combine (a b : Card) : Card :=
  if b.severity ≤ a.severity then a else b

def combineAll (cards : List Card) : Card :=
  cards.foldl combine .absent

@[simp] theorem ofName_name (card : Card) : ofName card.name = card := by
  cases card <;> rfl

theorem severity_injective {a b : Card} (h : a.severity = b.severity) : a = b := by
  cases a <;> cases b <;> first | rfl | cases h

theorem severity_combine (a b : Card) :
    (a.combine b).severity = max a.severity b.severity := by
  cases a <;> cases b <;> rfl

@[simp] theorem combine_self (a : Card) : a.combine a = a := by
  cases a <;> rfl

theorem combine_assoc (a b c : Card) :
    (a.combine b).combine c = a.combine (b.combine c) := by
  cases a <;> cases b <;> cases c <;> rfl

end Card

end ApneaScoring
