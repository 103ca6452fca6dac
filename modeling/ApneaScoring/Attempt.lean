import ApneaScoring.Card
import ApneaScoring.Performance

namespace ApneaScoring

/-- A deduction or a card applied to one attempt. -/
structure Penalization where
  id : String
  reason : String
  shortReason : String
  /-- Set only by the engine, for falling short of the announcement. -/
  isShort : Bool := false
  ruleInput : Option Binary64 := none
  delta : Performance := {}
  card : Card := .absent
deriving DecidableEq

namespace Penalization

def shortId : String := "Short"

def shortReasonText : String := "Short performance"

/-- Whether this is a short penalization, by mark or by name. -/
def claimsShort (p : Penalization) : Bool :=
  p.isShort || p.id == shortId

def toRecord (p : Penalization) : Datum :=
  .map <|
    [(.text "penalizationId", .text p.id),
      (.text "reason", .text p.reason),
      (.text "shortReason", .text p.shortReason),
      (.text "isShortPerformance", .bool p.isShort),
      (.text "performance", p.delta.toRecord),
      (.text "cardResult", .text p.card.name)] ++
    (p.ruleInput.map fun x => (Datum.text "ruleInput", Datum.float x)).toList

end Penalization

structure Announcement where
  discipline : String
  performance : Performance := {}
  notes : String := ""
deriving DecidableEq

/-- A recorded attempt. The final performance is fixed when the record is made. -/
structure Recorded where
  discipline : String
  realized : Performance
  final : Performance
  penalizations : List Penalization := []
  card : Card := .absent
  judge : String := ""
  comment : String := ""
  timestamp : Option String := none
deriving DecidableEq

def Recorded.short? (r : Recorded) : Option Penalization :=
  r.penalizations.find? (·.isShort)

/-- What a ranking compares. -/
structure Standing where
  announced : Performance := {}
  realized : Performance := {}
  final : Performance := {}
  card : Card := .absent
deriving DecidableEq, Inhabited

def Recorded.standing (r : Recorded) (announcement : Option Announcement) : Standing where
  announced := (announcement.map (·.performance)).getD {}
  realized := r.realized
  final := r.final
  card := r.card

end ApneaScoring
