import ApneaScoring.Attempt
import ApneaScoring.Journal.Level

namespace ApneaScoring.Journal

structure Line where
  level : Level
  text : String
deriving DecidableEq

def fieldLine (fields : List String) : String :=
  " | ".intercalate fields

def cardText (card : String) : String :=
  if card.isEmpty then "None" else card

def penaltyText (rule id card : String) (delta input : Option Binary64)
    (more : List (String × String)) : String :=
  fieldLine <|
    ["[PENALTY]", "rules=" ++ rule, "id=" ++ id, "card=" ++ cardText card] ++
    (delta.map ("delta=" ++ ·.briefText)).toList ++
    (input.map ("input=" ++ ·.briefText)).toList ++
    more.map fun field => field.1 ++ "=" ++ field.2

def penalty (rule id card : String) (delta input : Option Binary64)
    (more : List (String × String)) : Line where
  level := .debug
  text := penaltyText rule id card delta input more

def rulingText (rule card : String) (overridden : Bool)
    (more : List (String × String)) : String :=
  fieldLine <|
    [if overridden then "[RULING:OVERRIDE]" else "[RULING:COMPUTED]",
      "rules=" ++ rule, "card=" ++ cardText card] ++
    more.map fun field => field.1 ++ "=" ++ field.2

/-- A ruling by the judge's own hand is a warning. -/
def ruling (rule card : String) (overridden : Bool) (more : List (String × String)) :
    Line where
  level := if overridden then .warning else .info
  text := rulingText rule card overridden more

def debug (text : String) : Line := ⟨.debug, text⟩
def info (text : String) : Line := ⟨.info, text⟩
def warning (text : String) : Line := ⟨.warning, text⟩

end ApneaScoring.Journal
