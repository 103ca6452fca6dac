import ApneaScoring.CommandLine.Grammar
import ApneaScoring.CommandLine.Page
import ApneaScoring.Datum.Json
import ApneaScoring.Session
import ApneaScoring.Yaml.Document

namespace ApneaScoring.CommandLine

inductive Command
  | rules
  | «show»
  | points
  | score
  | validate
deriving DecidableEq

/-- How a run ends: with an exit code and a page, or over its arguments. -/
inductive Ending
  | done (exit : Nat) (page : Page)
  | refused (refusal : Refusal)
deriving DecidableEq

def program : String := "freedive"

namespace Command

def all : List Command := [.rules, .show, .points, .score, .validate]

def name : Command → String
  | rules => "rules"
  | «show» => "show"
  | points => "points"
  | score => "score"
  | validate => "validate"

def ofName? (s : String) : Option Command :=
  all.find? (·.name == s)

def numberSwitch (name : String) : Switch where
  names := [name]
  form := some .number

def requiredNumber (name : String) : Switch where
  names := [name]
  form := some .number
  required := true

def textSwitch (name : String) : Switch where
  names := [name]
  form := some .text

def jsonSwitch : Switch where
  names := ["--json"]

def cardNames : List String :=
  (Card.all.map (·.name)).filter (!·.isEmpty)

def switches : Command → List Switch
  | rules => []
  | «show» => [
      { names := ["--json"], excludes := ["--yaml"] },
      { names := ["--yaml"], excludes := ["--json"] }]
  | points => [numberSwitch "--duration", numberSwitch "--depth", numberSwitch "--distance"]
  | score => [
      requiredNumber "--announced", requiredNumber "--realized", numberSwitch "--duration",
      textSwitch "--penalty", { names := ["--card"], form := some (.choice cardNames) },
      textSwitch "--judge", jsonSwitch]
  | validate => []

def operand : Command → Option String
  | rules => none
  | validate => none
  | _ => some "rule"

def grammar (c : Command) : Grammar where
  program := program ++ " " ++ c.name
  operand := c.operand
  switches := c.switches

end Command

def programGrammar : Grammar where
  program := program

def choiceMessage (word : String) : String :=
  "argument command: invalid choice: " ++ Text.quoted word ++ " (choose from " ++
    ", ".intercalate (Command.all.map fun c => Text.quoted c.name) ++ ")"

def commandOf (word : String) : Except Refusal Command :=
  match Command.ofName? word with
  | some c => .ok c
  | none => programGrammar.refuse (choiceMessage word)

def missingCommand {α : Type} : Except Refusal α :=
  programGrammar.refuse "the following arguments are required: command"

def findCommand (skipped : List String) :
    List String → Except Refusal (List String × Command × List String)
  | [] => missingCommand
  | word :: rest =>
      if word = "--" then
        if rest.isEmpty then missingCommand else programGrammar.refuse (choiceMessage word)
      else match programGrammar.classify word with
        | .error e => .error e
        | .ok (.unknown _) => findCommand (skipped ++ [word]) rest
        | .ok (.switch _ attached) => programGrammar.askHelp attached
        | .ok _ => (commandOf word).map fun c => (skipped, c, rest)

def read (words : List String) : Except Refusal (Command × Grammar.Arguments) := do
  let (skipped, command, rest) ← findCommand [] words
  let arguments ← command.grammar.read rest
  let extras := skipped ++ arguments.extras
  if extras.isEmpty then return (command, arguments)
  else programGrammar.refuse ("unrecognized arguments: " ++ " ".intercalate extras)

namespace Grammar.Arguments

def has (a : Arguments) (name : String) : Bool :=
  a.given.any (·.1 == name)

def values (a : Arguments) (name : String) : List String :=
  (a.given.filter (·.1 == name)).map (·.2)

/-- The value of a switch; the last one counts. -/
def value? (a : Arguments) (name : String) : Option String :=
  (a.values name).getLast?

def number? (a : Arguments) (name : String) : Option Binary64 :=
  (a.value? name).bind Binary64.ofText?

def rule (a : Arguments) : String :=
  a.operand.getD ""

end Grammar.Arguments

open Grammar (Arguments)

def componentLabel (c : Option Component) : String :=
  match c with
  | some c => c.name
  | none => "-"

def pointsLabel (rule : Rule) : String :=
  if rule.hasPoints then "yes" else "no"

def ruleRow (rule : Rule) : List String :=
  [rule.name, componentLabel rule.primary, componentLabel rule.target, pointsLabel rule,
    toString rule.penalizations.length]

def listRules : Scoring Ending := do
  let r ← Session.defaultRepository
  let sorted := r.rules.mergeSort (fun a b => decide (a.name ≤ b.name))
  return .done 0 <| Page.table "Registered rules"
    ["Rule", "Primary", "Target", "Points", "Penalties"] (sorted.map ruleRow)

def inputLabel (entry : Entry) : String :=
  if entry.hasInput then
    entry.inputName.getD "" ++ " (" ++ entry.inputUnit.getD "" ++ ")"
  else ""

def entryRow (entry : Entry) : List String :=
  [entry.id, entry.reason, entry.card.label, inputLabel entry]

def ruleHeading (rule : Rule) : String :=
  rule.name ++ "  primary=" ++ componentLabel rule.primary ++
    "  target=" ++ componentLabel rule.target ++ "  points=" ++ pointsLabel rule

def rulePage (rule : Rule) : Page :=
  .row [ruleHeading rule] ::
    Page.table "Penalties" ["Id", "Reason", "Card", "Input"]
      (rule.penalizations.map entryRow)

def withoutLastBreak (s : String) : String :=
  if s.endsWith "\n" then String.ofList s.toList.dropLast else s

def showRule (a : Arguments) : Scoring Ending := do
  let rule ← Session.resolve (.name a.rule)
  let descriptor ← Session.liftWire rule.describe
  if a.has "--json" then return .done 0 (Page.ofText descriptor.json)
  else if a.has "--yaml" then return .done 0 (Page.ofText (withoutLastBreak (Yaml.write descriptor)))
  else return .done 0 (rulePage rule)

def showPoints (a : Arguments) : Scoring Ending := do
  let realized : Performance :=
    { duration := a.number? "--duration"
      depth := a.number? "--depth"
      distance := a.number? "--distance" }
  let points ← Session.points (.name a.rule) realized
  return .done 0 [.text (points.briefText ++ " points")]

def penaltyOf (word : String) : String × Datum :=
  let cs := word.toList
  let input := Text.strip (String.ofList ((cs.dropWhile (· != '=')).drop 1))
  (Text.strip (String.ofList (cs.takeWhile (· != '='))),
    if input.isEmpty then .null else .text input)

def measured (primary : Component) (a : Arguments) (name : String) : Performance :=
  .only primary (a.number? name)

def withDuration (primary : Component) (a : Arguments) (realized : Performance) :
    Performance :=
  match a.number? "--duration" with
  | some x => if primary = .duration then realized else realized.set .duration (some x)
  | none => realized

def scoreRecord (rule : Rule) (r : Recorded) : Datum :=
  .map [(.text "rules", .text rule.name),
    (.text "performance", r.realized.toRecord),
    (.text "finalPerformance", r.final.toRecord),
    (.text "cardResult", .text r.card.name),
    (.text "penalizations", .list (r.penalizations.map (·.toRecord)))]

def penalizationRow (target : Component) (p : Penalization) : List String :=
  [p.id, p.card.label, Page.numberText (p.delta.get target)]

def componentLine (r : Recorded) (c : Component) : Option Line :=
  (r.final.get c).map fun final =>
    .text (c.name ++ ": " ++ Page.numberText (r.realized.get c) ++ " -> " ++ final.briefText)

def scorePage (rule : Rule) (target : Component) (r : Recorded) : Page :=
  Page.table (rule.name ++ " result")
      ["Penalty", "Card", "Delta (" ++ target.name ++ ")"]
      (r.penalizations.map (penalizationRow target)) ++
    .text ("Card: " ++ r.card.label) :: Component.all.filterMap (componentLine r)

def demand (c : Option Component) : Scoring Component :=
  match c with
  | some c => return c
  | none => throw (.rule .absentComponent)

def scoreKnown (a : Arguments) : Scoring Ending := do
  let rule ← Session.resolve (.name a.rule)
  let primary ← demand rule.primary
  let realized := withDuration primary a (measured primary a "--realized")
  let penalizations ← (a.values "--penalty").mapM fun word =>
    let (id, input) := penaltyOf word
    Session.penalize (.definition rule) (.text id) input realized
  let recorded ← Session.submit (.definition rule)
    { declared := .performance (measured primary a "--announced")
      realized
      penalizations
      card := Card.ofName ((a.value? "--card").getD "")
      judge := (a.value? "--judge").getD "" }
  if a.has "--json" then return .done 0 (Page.ofText (scoreRecord rule recorded).json)
  else do
    let target ← demand rule.target
    return .done 0 (scorePage rule target recorded)

def scoreAttempt (a : Arguments) : Scoring Ending := do
  if ← Session.ruleExists a.rule then scoreKnown a
  else return .done 1 (Page.shown ("Unknown rules '" ++ Page.safely a.rule ++ "'"))

def validateSettings : Scoring Ending := do
  let s ← get
  let (valid, messages) := s.settings.validate (some Federations.names)
  let page := messages.flatMap Page.shown
  if valid then return .done 0 (page ++ [.text "Configuration OK"])
  else return .done 1 page

def perform (a : Arguments) : Command → Scoring Ending
  | .rules => listRules
  | .show => showRule a
  | .points => showPoints a
  | .score => scoreAttempt a
  | .validate => validateSettings

def refusalPage (e : ScoringError) : Page :=
  Page.shown ("Error: " ++ Page.safely (e.message?.getD ""))

/-- Runs a command line. What the engine refuses is put out; other errors go on. -/
def run (words : List String) : Scoring Ending := do
  match read words with
  | .error refusal => return .refused refusal
  | .ok (command, arguments) =>
      try perform arguments command
      catch e =>
        if e.isRefusal then return .done 2 (refusalPage e) else throw e

end ApneaScoring.CommandLine
