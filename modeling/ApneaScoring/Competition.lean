import ApneaScoring.Session

namespace ApneaScoring

/-- Values by key, in the order in which the keys were first set. -/
abbrev Ledger (κ α : Type) := List (κ × α)

namespace Ledger

variable {κ α : Type} [DecidableEq κ]

def put (key : κ) (value : α) : Ledger κ α → Ledger κ α
  | [] => [(key, value)]
  | entry :: entries =>
      if entry.1 = key then (key, value) :: entries else entry :: put key value entries

def get? (key : κ) (ledger : Ledger κ α) : Option α :=
  (ledger.find? fun entry => entry.1 = key).map (·.2)

end Ledger

/-- An athlete in a discipline. -/
structure Start where
  athlete : String
  discipline : String
deriving DecidableEq

structure Competition where
  disciplines : Ledger String (Option String) := []
  announcements : Ledger Start Announcement := []
  pending : Ledger Start (List Penalization) := []
  /-- Athletes in the order of their first results. -/
  results : Ledger String (Ledger String Standing) := []

namespace Competition

def declare (c : Competition) (discipline : String) (rules : Option String) :
    Competition :=
  { c with disciplines := Ledger.put discipline rules c.disciplines }

def rulesName (c : Competition) (discipline : String) : Option String :=
  (Ledger.get? discipline c.disciplines).join

def announce (c : Competition) (start : Start) (performance : Performance) :
    Competition :=
  { c with
    announcements :=
      Ledger.put start ⟨start.discipline, performance, ""⟩ c.announcements }

def pendingFor (c : Competition) (start : Start) : List Penalization :=
  (Ledger.get? start c.pending).getD []

def penalize (c : Competition) (start : Start) (id given : Datum)
    (realized : Performance) : Scoring (Penalization × Competition) := do
  let p ← Session.penalize (.name (c.rulesName start.discipline)) id given realized
  let pending := Ledger.put start (c.pendingFor start ++ [p]) c.pending
  return (p, { c with pending })

def resultsOf (c : Competition) (athlete : String) : Ledger String Standing :=
  (Ledger.get? athlete c.results).getD []

def record (c : Competition) (start : Start) (standing : Standing) : Competition :=
  { c with
    pending := Ledger.put start [] c.pending
    results := Ledger.put start.athlete
      (Ledger.put start.discipline standing (c.resultsOf start.athlete)) c.results }

def submission (c : Competition) (start : Start) (realized : Performance) (card : Card)
    (override : Option Performance) : Submission where
  declared := match Ledger.get? start c.announcements with
    | some announcement => .announcement announcement
    | none => .nothing
  realized := realized
  penalizations := c.pendingFor start
  card := card
  override := override

/-- Records an attempt with the penalizations that wait for it. -/
def submit (c : Competition) (start : Start) (realized : Performance) (card : Card)
    (override : Option Performance) : Scoring ((Recorded × Standing) × Competition) := do
  let submission := c.submission start realized card override
  let recorded ← Session.submit (.name (c.rulesName start.discipline)) submission
  let standing := recorded.standing submission.declared.announcement?
  return ((recorded, standing), c.record start standing)

def entrants (c : Competition) (column : Column) : List (String × Standing) :=
  (column.entrants (fun athlete discipline => Ledger.get? discipline athlete.2) c.results).map
    fun entrant => (entrant.1.1, entrant.2)

def standings (c : Competition) (column : Column) :
    Scoring (Comparator × List (Nat × String × Standing)) := do
  let comparator ← Session.columnComparator column c.rulesName none
  return (comparator, comparator.rank (·.2) (c.entrants column))

end Competition

end ApneaScoring
