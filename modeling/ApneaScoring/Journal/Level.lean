import ApneaScoring.Text.Uppercase

namespace ApneaScoring

structure Level where
  number : Int
deriving DecidableEq, Repr

namespace Level

def debug : Level := ⟨10⟩
def info : Level := ⟨20⟩
def warning : Level := ⟨30⟩
def error : Level := ⟨40⟩
def critical : Level := ⟨50⟩

def named : List (String × Level) :=
  [("DEBUG", debug), ("INFO", info), ("WARNING", warning), ("ERROR", error),
    ("CRITICAL", critical)]

def synonyms : List (String × Level) :=
  [("WARN", warning), ("FATAL", critical), ("NOTSET", ⟨0⟩)]

def name (level : Level) : String :=
  match named.find? (·.2 == level) with
  | some (name, _) => name
  | none => "Level " ++ toString level.number

/-- The level of a name in any case; other names mean `info`. -/
def ofName (s : String) : Level :=
  ((named ++ synonyms).lookup (Text.upper s)).getD info

/-- What passes at a threshold; the lowest threshold stands for `warning`. -/
def passes (threshold level : Level) : Bool :=
  let least := if threshold.number = 0 then warning.number else threshold.number
  least ≤ level.number

end Level

end ApneaScoring
