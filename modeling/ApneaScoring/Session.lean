import ApneaScoring.Column
import ApneaScoring.Error
import ApneaScoring.Journal.Line
import ApneaScoring.Rule.Descriptor
import ApneaScoring.Rule.Repository
import ApneaScoring.Settings.EnvironmentFile
import ApneaScoring.Submission

namespace ApneaScoring

structure Session where
  environment : Environment := []
  settings : Settings := .ofEnvironment []
  repository : Option Repository := none
  journal : List Journal.Line := []

abbrev Scoring := ExceptT ScoringError (StateM Session)

inductive RuleRef
  | name (name : Option String)
  | definition (rule : Rule)
deriving DecidableEq

namespace Session

def ofEnvironment (environment : Environment) : Session where
  environment := environment
  settings := .ofEnvironment environment

def run {α : Type} (s : Session) (action : Scoring α) : Except ScoringError α × Session :=
  StateT.run (ExceptT.run action) s

def write (line : Journal.Line) : Scoring Unit :=
  modify fun s => { s with journal := s.journal ++ [line] }

def writeAll (lines : List Journal.Line) : Scoring Unit :=
  modify fun s => { s with journal := s.journal ++ lines }

def lift {α : Type} (result : Except RuleError α) : Scoring α :=
  match result with
  | .ok a => pure a
  | .error e => throw (.rule e)

def liftWire {α : Type} (result : Except WireError α) : Scoring α :=
  match result with
  | .ok a => pure a
  | .error e => throw (.wire e)

def restrictionLine (r : Repository) : List Journal.Line :=
  if r.size < Federations.all.length then
    [Journal.info ("Enabled rules restricted to " ++ Datum.displayTexts r.names)]
  else []

def defaultRepository : Scoring Repository := do
  let s ← get
  match s.repository with
  | some r => return r
  | none =>
      let r := Repository.ofSettings s.settings
      writeAll (restrictionLine r)
      modify fun s => { s with repository := some r }
      return r

def resetRepository : Scoring Unit :=
  modify fun s => { s with repository := none }

/-- New settings leave a default repository that is already made as it is. -/
def reload (environment : Environment) : Scoring Settings := do
  let settings := Settings.ofEnvironment environment
  modify fun s => { s with environment, settings }
  return settings

def replacementLine (r : Repository) (rule : Rule) : List Journal.Line :=
  if r.contains rule.name then
    [Journal.debug ("Replacing rule definition " ++ rule.name)]
  else []

def insertRule (r : Repository) (rule : Rule) : Scoring Repository := do
  writeAll (replacementLine r rule)
  return r.insert rule

def repositoryOf (rules : List Rule) : Scoring Repository :=
  rules.foldlM insertRule .empty

def register (rule : Rule) : Scoring Unit := do
  let r ← defaultRepository
  let r ← insertRule r rule
  modify fun s => { s with repository := some r }

def unknownLine (r : Repository) (name : Option String) : List Journal.Line :=
  if r.contains (name.getD "") then []
  else [Journal.warning <|
    "Unknown rules '" ++ name.getD "None" ++ "', using '?'. Available: " ++
      Datum.displayTexts r.sortedNames]

/-- No name is looked up as the empty one. -/
def lookup (r : Repository) (name : Option String) : Scoring Rule := do
  writeAll (unknownLine r name)
  return r.get (name.getD "")

def resolve : RuleRef → Scoring Rule
  | .definition rule => return rule
  | .name name => do
      let r ← defaultRepository
      lookup r name

def ruleNames : Scoring (List String) := do
  let r ← defaultRepository
  return r.sortedNames

def ruleExists (name : String) : Scoring Bool := do
  let r ← defaultRepository
  return r.contains name

def describe (ref : RuleRef) : Scoring Datum := do
  let rule ← resolve ref
  liftWire rule.describe

def points (ref : RuleRef) (realized : Performance) : Scoring Binary64 := do
  let rule ← resolve ref
  lift (rule.points realized)

def penaltyLine (rule : Rule) (p : Penalization) : Journal.Line :=
  Journal.penalty rule.name p.id p.card.name (rule.target.bind p.delta.get) p.ruleInput []

def penalize (ref : RuleRef) (id given : Datum) (realized : Performance) :
    Scoring Penalization := do
  let rule ← resolve ref
  let p ← lift (rule.penalize id given realized)
  write (penaltyLine rule p)
  return p

def optionText (x : Option Binary64) : String :=
  match x with
  | some x => x.text
  | none => "None"

def shortLine (rule : Rule) (announced realized : Performance) (p : Penalization) :
    List Journal.Line :=
  match rule.primary, rule.shortfall? announced realized with
  | some primary, some shortfall =>
      [Journal.debug <|
        "Short on " ++ primary.name ++ ": announced=" ++ shortfall.announced.briefText ++
          " realized=" ++ shortfall.realized.briefText ++
          " delta=" ++ optionText (rule.target.bind p.delta.get)]
  | _, _ => []

def writeShort (rule : Rule) (announced realized : Performance) :
    Scoring (Option Penalization) := do
  let short ← lift (rule.short? announced realized)
  match short with
  | some p =>
      writeAll (shortLine rule announced realized p)
      write (penaltyLine rule p)
  | none => pure ()
  return short

def short (ref : RuleRef) (announced realized : Performance) :
    Scoring (Option Penalization) := do
  let rule ← resolve ref
  writeShort rule announced realized

def reconcile (ref : RuleRef) (realized : Performance) (penalizations : List Penalization)
    (card : Card) : Scoring Performance := do
  let rule ← resolve ref
  return rule.reconcile realized penalizations card

def droppedLine (rule : Rule) : Journal.Line :=
  Journal.debug ("Dropping caller-supplied short penalization for " ++ rule.name)

def rulingLine (rule : Rule) (s : Submission) (r : Recorded) : Journal.Line :=
  Journal.ruling rule.name r.card.name s.override.isSome
    [("discipline", if r.discipline.isEmpty then "-" else r.discipline),
      ("penalties", toString r.penalizations.length)]

def submit (ref : RuleRef) (s : Submission) : Scoring Recorded := do
  let rule ← resolve ref
  let realized ← lift (rule.withPoints s.realized)
  writeAll (List.replicate s.droppedCount (droppedLine rule))
  let short ← writeShort rule s.declared.announced realized
  let recorded := rule.recorded s realized short
  write (rulingLine rule s recorded)
  return recorded

/-- The comparator of a column, each part's rule looked up in a repository; one that
is not given, or is empty, is the default one. -/
def columnComparator (column : Column) (rulesName : String → Option String)
    (repository : Option Repository) : Scoring Comparator := do
  let r ← match repository with
    | some r => if r.size = 0 then defaultRepository else pure r
    | none => defaultRepository
  let rules ← column.parts.mapM fun part => lookup r (rulesName part.discipline)
  return Column.comparatorOf rules

end Session

end ApneaScoring
