import ApneaScoring.Reconciliation

namespace ApneaScoring

/-- What an athlete declared, with or without the record it was declared in. -/
inductive Declared
  | nothing
  | performance (declared : Performance)
  | announcement (record : Announcement)
deriving DecidableEq

namespace Declared

def announced : Declared → Performance
  | nothing => .empty
  | performance declared => declared
  | announcement record => record.performance

def announcement? : Declared → Option Announcement
  | announcement record => some record
  | _ => none

def discipline (given : String) : Declared → String
  | announcement record => if given.isEmpty then record.discipline else given
  | _ => given

end Declared

structure Submission where
  declared : Declared := .nothing
  realized : Performance := {}
  penalizations : List Penalization := []
  card : Card := .absent
  judge : String := ""
  comment : String := ""
  timestamp : Option String := none
  /-- The judge's own final performance, stored as it is. -/
  override : Option Performance := none
  discipline : String := ""
deriving DecidableEq

namespace Submission

def genuine (s : Submission) : List Penalization :=
  s.penalizations.filter (!·.claimsShort)

def droppedCount (s : Submission) : Nat :=
  (s.penalizations.filter (·.claimsShort)).length

end Submission

namespace Rule

/-- The realized performance with its points, which need the measured component. -/
def withPoints (r : Rule) (realized : Performance) : Except RuleError Performance :=
  if r.hasPoints then
    match r.primary with
    | none => .error .absentComponent
    | some primary =>
        if (realized.get primary).isSome then do
          let points ← r.points realized
          return realized.set .points (some points)
        else .ok realized
  else .ok realized

def recorded (r : Rule) (s : Submission) (realized : Performance)
    (short : Option Penalization) : Recorded :=
  let penalizations := short.toList ++ s.genuine
  let card := penalizationsCard penalizations s.card
  { discipline := s.declared.discipline s.discipline
    realized
    final := s.override.getD
      (finalPerformance realized penalizations card r.target r.measures)
    penalizations
    card
    judge := s.judge
    comment := s.comment
    timestamp := s.timestamp }

def submit (r : Rule) (s : Submission) : Except RuleError Recorded := do
  let realized ← r.withPoints s.realized
  let short ← r.short? s.declared.announced realized
  return r.recorded s realized short

end Rule

end ApneaScoring
