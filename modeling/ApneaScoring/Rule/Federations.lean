import ApneaScoring.Rule.Basic

namespace ApneaScoring.Federations

open Calculation

def number (n : Nat) : Calculation :=
  constant (.float (.ofDecimal false n 0))

def tenths (n : Nat) : Calculation :=
  constant (.float (.ofDecimal false n (-1)))

def input : Calculation := .variable "Input"

def announced : Component → Calculation
  | .duration => .variable "AnnouncedDuration"
  | .depth => .variable "AnnouncedDepth"
  | .distance => .variable "AnnouncedDistance"
  | .points => .variable "AnnouncedPoints"

def realized : Component → Calculation
  | .duration => .variable "RealizedDuration"
  | .depth => .variable "RealizedDepth"
  | .distance => .variable "RealizedDistance"
  | .points => .variable "RealizedPoints"

def plus : Calculation → Calculation → Calculation := binary .plus
def minus : Calculation → Calculation → Calculation := binary .minus
def times : Calculation → Calculation → Calculation := binary .multiply

def shortage (c : Component) : Calculation :=
  minus (announced c) (realized c)

def onePerFiveSeconds : Calculation :=
  ceiling (times (tenths 2) input)

def fivePerCount : Calculation :=
  times (number 5) input

def fixed (id reason shortReason : String) (deduction : Nat) : Entry where
  id := id
  reason := reason
  shortReason := shortReason
  calculation := some (number deduction)
  card_ne_white := by simp
  calculated := by simp

def timed (id reason shortReason label : String) : Entry where
  id := id
  reason := reason
  shortReason := shortReason
  calculation := some onePerFiveSeconds
  inputName := some label
  inputUnit := some "s"
  card_ne_white := by simp
  calculated := by simp

def counted (id reason shortReason : String) : Entry where
  id := id
  reason := reason
  shortReason := shortReason
  calculation := some fivePerCount
  inputName := some "Count"
  inputUnit := some "x"
  card_ne_white := by simp
  calculated := by simp

def redCard (id reason shortReason : String) : Entry where
  id := id
  reason := reason
  shortReason := shortReason
  card := .red
  card_ne_white := by simp
  calculated := by simp

def blackout : Entry := redCard "Blackout" "Blackout" "BO"
def surfaceProtocol : Entry := redCard "SurfaceProtocol" "Surface protocol" "SP"

def missedStart : Entry where
  id := "MissedStart"
  reason := "Missed start"
  shortReason := "DNS"
  card := .didNotStart

namespace Aida

def earlyStart : Entry := timed "EarlyStart" "Early start" "Early" "Time (seconds)"
def lateStart : Entry := timed "LateStart" "Late start" "Late" "Seconds after OT"
def exitHelp : Entry := fixed "ExitHelp" "Push/pull on exit" "Exit" 5
def noWall : Entry := counted "NoWall" "Wrong turn <1m" "Turn"
def noTag : Entry := fixed "NoTag" "No tag delivered" "Tag" 1
def grabLine : Entry := counted "GrabLine" "Grab line" "Grab"
def lanyard : Entry := fixed "Lanyard" "Removed lanyard" "Lanyard" 10
def supportiveTouch : Entry := redCard "SupportiveTouch" "Supportive touch" "Touch"
def equipment : Entry := redCard "Equipment" "Forbidden equipment" "Equipment"
def wrongTurn : Entry := redCard "WrongTurn" "Wrong turn >1m" "Turn"

def starts : List Entry := [earlyStart, lateStart]

def disqualifications : List Entry :=
  [blackout, surfaceProtocol, supportiveTouch, equipment, missedStart]

def comparator (primary : Component) : Comparator :=
  (Comparator.tie.descending (.final .points)).ascending (.deviation primary)

def fields (name : String) (primary : Component) (penalizations : List Entry)
    (points short : Calculation) : RuleFields where
  name := name
  primary := some primary
  hasPoints := true
  hasDuration := primary = .duration
  hasDepth := primary = .depth
  hasDistance := primary = .distance
  penalizations := penalizations
  pointsCalculation := some points
  shortCalculation := some short
  comparator := comparator primary

def sta : Rule where
  toRuleFields := fields "AIDA_STA" .duration (starts ++ disqualifications)
    (times (tenths 2) (realized .duration))
    (ceiling (times (tenths 2) (shortage .duration)))

def dyn : Rule where
  toRuleFields := fields "AIDA_DYN" .distance
    (starts ++ [exitHelp, noWall] ++ disqualifications ++ [wrongTurn])
    (times (tenths 5) (realized .distance))
    (times (tenths 5) (shortage .distance))

def cwt : Rule where
  toRuleFields := fields "AIDA_CWT" .depth
    (starts ++ [lanyard, grabLine, noTag] ++ disqualifications ++ [wrongTurn])
    (realized .depth)
    (shortage .depth)

end Aida

namespace Cmas

def noDisc : Entry := redCard "NoDisc" "Not touched disc" "Disc"
def corner : Entry := redCard "Corner" "Cut corner" "Corner"
def lane : Entry := counted "Lane" "Out of lane" "Lane"
def noTag : Entry := fixed "NoTag" "No tag delivered" "Tag" 5
def grab : Entry := counted "Grab" "Grab line" "Grab"
def badMarker : Entry := fixed "BadMarker" "No tag secured" "Tag" 5

def disqualifications : List Entry := [blackout, surfaceProtocol, missedStart]

def comparator (primary : Component) : Comparator :=
  (Comparator.tie.descending (.final primary)).ascending (.deviation primary)

def shortWithSurcharge (primary : Component) : Calculation :=
  plus (number 5) (shortage primary)

def fields (name : String) (primary : Component) (penalizations : List Entry)
    (short : Calculation) : RuleFields where
  name := name
  primary := some primary
  hasDuration := primary = .duration
  hasDepth := primary = .depth
  hasDistance := primary = .distance
  penalizations := disqualifications ++ penalizations
  shortCalculation := some short
  comparator := comparator primary

def sta : Rule where
  toRuleFields := fields "CMAS_STA" .duration [] (shortage .duration)

def dyn : Rule where
  toRuleFields := fields "CMAS_DYN" .distance [lane] (shortWithSurcharge .distance)

/-- Depth, with the duration of the dive to part those who tie. -/
def cwt : Rule where
  toRuleFields :=
    { fields "CMAS_CWT" .depth [noTag, grab] (shortWithSurcharge .depth) with
      hasDuration := true
      comparator := (comparator .depth).ascending (.deviation .duration) }

def jb : Rule where
  toRuleFields := fields "CMAS_JB" .distance [corner, noDisc, badMarker]
    (shortWithSurcharge .distance)

end Cmas

def all : List Rule :=
  [Aida.sta, Aida.dyn, Aida.cwt, Cmas.sta, Cmas.dyn, Cmas.cwt, Cmas.jb]

def names : List String :=
  all.map (·.name)

end ApneaScoring.Federations
