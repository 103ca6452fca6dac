import ApneaScoring.Journal.Line

namespace ApneaScoring.Journal

def rootSource : String := "freedive"

structure Record where
  source : String
  line : Line
deriving DecidableEq

def Record.isOurs (r : Record) : Bool :=
  r.source = rootSource || r.source.startsWith (rootSource ++ ".")

def colorOf (level : Level) : String :=
  if level = .debug then "\x1b[96m"
  else if level = .info then "\x1b[92m"
  else if level = .warning then "\x1b[93m"
  else if level = .error then "\x1b[91m"
  else if level = .critical then "\x1b[1m\x1b[91m"
  else "\x1b[97m"

def colored (level : Level) (text : String) : String :=
  colorOf level ++ text ++ "\x1b[0m"

def consoleLine (r : Record) : String :=
  " | " ++ colored r.line.level r.line.level.name ++
    " | " ++ colored r.line.level r.line.text

def fileLine (r : Record) : String :=
  " | " ++ r.line.level.name ++ " | " ++ r.source ++ " | " ++ r.line.text

def shown (threshold : Level) (records : List Record) : List Record :=
  records.filter fun r => r.isOurs && threshold.passes r.line.level

def console (threshold : Level) (records : List Record) : List String :=
  (shown threshold records).map consoleLine

def file (threshold : Level) (records : List Record) : List String :=
  (shown threshold records).map fileLine

end ApneaScoring.Journal
