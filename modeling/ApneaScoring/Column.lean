import ApneaScoring.Ranking
import ApneaScoring.Rule.Basic

namespace ApneaScoring

/-- A discipline's part in a column; the coefficient scales its final points. -/
structure ColumnPart where
  discipline : String
  coefficient : Option Binary64 := none
deriving DecidableEq

structure Column where
  title : String := ""
  parts : List ColumnPart := []
  isFinal : Bool := false
deriving DecidableEq

def Column.isComposite (c : Column) : Bool :=
  1 < c.parts.length

/-- Absent and absent is absent; absent and a number is the number. -/
def Binary64.addPresent : Option Binary64 → Option Binary64 → Option Binary64
  | none, b => b
  | a, none => a
  | some a, some b => some (a + b)

namespace Performance

def add (p q : Performance) : Performance where
  duration := Binary64.addPresent p.duration q.duration
  depth := Binary64.addPresent p.depth q.depth
  distance := Binary64.addPresent p.distance q.distance
  points := Binary64.addPresent p.points q.points

def sum (performances : List Performance) : Performance :=
  performances.foldl add .empty

def scalePoints (p : Performance) (coefficient : Option Binary64) : Performance :=
  match coefficient, p.points with
  | some k, some points => { p with points := some (points * k) }
  | _, _ => p

theorem get_add (p q : Performance) (c : Component) :
    (p.add q).get c = Binary64.addPresent (p.get c) (q.get c) := by
  cases c <;> rfl

end Performance

namespace Standing

def scaledFinals : List Standing → List (Option Binary64) → List Performance
  | [], _ => []
  | s :: standings, [] => s.final :: scaledFinals standings []
  | s :: standings, k :: coefficients =>
      s.final.scalePoints k :: scaledFinals standings coefficients

/-- One record of several: performances summed, the most severe card. -/
def combine (standings : List Standing) (coefficients : List (Option Binary64)) :
    Standing where
  announced := .sum (standings.map (·.announced))
  realized := .sum (standings.map (·.realized))
  final := .sum (scaledFinals standings coefficients)
  card := .combineAll (standings.map (·.card))

end Standing

namespace Column

def contributions (c : Column) (results : String → Option Standing) :
    List (Standing × Option Binary64) :=
  c.parts.filterMap fun part =>
    (results part.discipline).map (·, part.coefficient)

/-- An athlete's record in the column; none without a result in it. -/
def standing? (c : Column) (results : String → Option Standing) : Option Standing :=
  match c.contributions results with
  | [] => none
  | parts => some (.combine (parts.map (·.1)) (parts.map (·.2)))

def entrants {α : Type} (column : Column) (resultsOf : α → String → Option Standing)
    (athletes : List α) : List (α × Standing) :=
  athletes.filterMap fun athlete =>
    (column.standing? (resultsOf athlete)).map (athlete, ·)

def distinctRules (rules : List Rule) : List Rule :=
  rules.foldl (fun seen r => if r ∈ seen then seen else seen ++ [r]) []

def byPrimaries (rules : List Rule) : Comparator :=
  let primaries := (rules.filterMap (·.primary)).foldl
    (fun seen c => if c ∈ seen then seen else seen ++ [c]) []
  primaries.foldl (fun comparator c => comparator.descending (.final c)) .tie

/-- How a column scored by these rules is ordered: by the comparator of a single rule,
by points where all award them, else by the primary components in turn. -/
def comparatorOf (rules : List Rule) : Comparator :=
  match distinctRules rules with
  | [] => .tie
  | [r] => r.comparator
  | rules =>
      if rules.all (·.hasPoints) then Comparator.tie.descending (.final .points)
      else byPrimaries rules

end Column

end ApneaScoring
