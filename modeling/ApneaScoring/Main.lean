import ApneaScoring.CommandLine.Commands
import ApneaScoring.Journal.Rendering

namespace ApneaScoring

open CommandLine

def variableNames : List String :=
  ["FREEDIVE_LOG_LEVEL", "FREEDIVE_LOG_DIR", "FREEDIVE_LOG_TO_FILE",
    "FREEDIVE_ENABLED_RULES"]

def environment : IO Environment := do
  let set ← variableNames.filterMapM fun name => do
    return (← IO.getEnv name).map (name, ·)
  try
    let file ← IO.FS.readFile ".env"
    return EnvironmentFile.extend set file
  catch _ => return set

def cellWidth (rows : List (List String)) (column : Nat) : Nat :=
  (rows.map fun cells => (cells[column]?.getD "").length).foldl max 0

def padded (rows : List (List String)) (cells : List String) : String :=
  let pad (cell : String) (column : Nat) :=
    cell ++ "".pushn ' ' (cellWidth rows column - cell.length)
  Text.stripEnd ("  ".intercalate (cells.mapIdx fun column cell => pad cell column))

def rowsOf (page : Page) : List (List String) :=
  page.filterMap fun
    | .row cells => some cells
    | .text _ => none

def printPage (page : Page) : IO Unit :=
  page.forM fun
    | .text line => IO.println line
    | .row cells => IO.println (padded (rowsOf page) cells)

def printJournal (s : Session) : IO Unit :=
  (Journal.console (Level.ofName s.settings.level)
    (s.journal.map fun line => ⟨Journal.rootSource, line⟩)).forM (IO.eprintln ·)

def helpText : String :=
  "usage: " ++ program ++ " [-h] COMMAND ...\ncommands: " ++
    ", ".intercalate (Command.all.map (·.name))

def finish : Except ScoringError Ending → IO UInt32
  | .ok (.done exit page) => do
      printPage page
      return exit.toUInt32
  | .ok (.refused .help) => do
      IO.println helpText
      return 0
  | .ok (.refused (.usage name message)) => do
      IO.eprintln (name ++ ": error: " ++ message)
      return 2
  | .error e => do
      IO.eprintln (e.message?.getD "A value is not of the kind that is needed")
      return 1

def runProgram (words : List String) : IO UInt32 := do
  let session := Session.ofEnvironment (← environment)
  let (result, session) := session.run (CommandLine.run words)
  printJournal session
  finish result

end ApneaScoring

def main (words : List String) : IO UInt32 :=
  ApneaScoring.runProgram words
