import ApneaScoring.Datum.Display
import ApneaScoring.Text.Blank
import ApneaScoring.Text.Uppercase

namespace ApneaScoring

abbrev Environment := List (String × String)

structure Settings where
  level : String := "INFO"
  directory : String := "logs"
  toFile : Bool := false
  /-- Which rules are registered; none named means all. -/
  enabledRules : List String := []
deriving DecidableEq, Inhabited

namespace Settings

open Text

def levels : List String := ["DEBUG", "INFO", "WARNING", "ERROR", "CRITICAL"]

def isOn (value : String) : Bool :=
  ["1", "true", "yes", "on"].contains (lower (strip value))

def readNames (value : String) : List String :=
  ((split ',' value).map fun piece => upper (strip piece)).filter (!·.isEmpty)

def ofEnvironment (environment : Environment) : Settings where
  level := upper (strip ((environment.lookup "FREEDIVE_LOG_LEVEL").getD "INFO"))
  directory := (environment.lookup "FREEDIVE_LOG_DIR").getD "logs"
  toFile := isOn ((environment.lookup "FREEDIVE_LOG_TO_FILE").getD "false")
  enabledRules := readNames ((environment.lookup "FREEDIVE_ENABLED_RULES").getD "")

def isEnabled (s : Settings) (rule : String) : Bool :=
  s.enabledRules.isEmpty || s.enabledRules.contains rule

def hasValidLevel (s : Settings) : Bool :=
  levels.contains s.level

def sortedTexts (texts : List String) : List String :=
  texts.mergeSort (fun a b => decide (a ≤ b))

def levelMessage (s : Settings) : String :=
  "FREEDIVE_LOG_LEVEL=" ++ quoted s.level ++ " is not a valid level. Valid: " ++
    Datum.displayTexts levels

def unknownMessage (unknown known : List String) : String :=
  "[WARN] FREEDIVE_ENABLED_RULES lists unknown rules " ++ Datum.displayTexts unknown ++
    "; they resolve to the '?' rule. Available: " ++ Datum.displayTexts (sortedTexts known)

/-- Enabled names are checked only against names that are given. -/
def unknownRules (s : Settings) (known : Option (List String)) : List String :=
  match known with
  | some names => s.enabledRules.filter (!names.contains ·)
  | none => []

/-- Whether the settings are usable, and what is to be said of them. -/
def validate (s : Settings) (known : Option (List String)) : Bool × List String :=
  let errors := if s.hasValidLevel then [] else [s.levelMessage]
  let unknown := s.unknownRules known
  let warnings := if unknown.isEmpty then [] else [unknownMessage unknown (known.getD [])]
  (errors.isEmpty, errors ++ warnings)

end Settings

end ApneaScoring
