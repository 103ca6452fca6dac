import ApneaScoring.Calculation.Wire
import ApneaScoring.Rule.Basic

namespace ApneaScoring

def describeCalculation : Option Calculation → Except WireError Datum
  | some calculation => calculation.toWire
  | none => .ok .null

def componentText (c : Option Component) : Datum :=
  .text ((c.map (·.name)).getD "")

def Entry.describe (e : Entry) : Except WireError Datum := do
  let calculation ← describeCalculation e.calculation
  return .map
    [(.text "id", .text e.id),
      (.text "reason", .text e.reason),
      (.text "shortReason", .text e.shortReason),
      (.text "hasInput", .bool e.hasInput),
      (.text "inputName", .text (e.inputName.getD "")),
      (.text "inputUnit", .text (e.inputUnit.getD "")),
      (.text "cardResult", .text e.card.name),
      (.text "calculation", calculation)]

def Rule.describe (r : Rule) : Except WireError Datum := do
  let penalizations ← r.penalizations.mapM (·.describe)
  let points ← describeCalculation r.pointsCalculation
  let short ← describeCalculation r.shortCalculation
  return .map
    [(.text "name", .text r.name),
      (.text "hasDuration", .bool r.hasDuration),
      (.text "hasDistance", .bool r.hasDistance),
      (.text "hasDepth", .bool r.hasDepth),
      (.text "hasPoints", .bool r.hasPoints),
      (.text "primaryComponent", componentText r.primary),
      (.text "penalizationsTarget", componentText r.target),
      (.text "penalizations", .list penalizations),
      (.text "pointsCalculation", points),
      (.text "shortCalculation", short)]

def describeRules (rules : List Rule) : Except WireError Datum := do
  let descriptors ← rules.mapM (·.describe)
  return .map [(.text "rules", .list descriptors)]

end ApneaScoring
