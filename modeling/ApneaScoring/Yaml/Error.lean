import ApneaScoring.Text.Quoted

namespace ApneaScoring.Yaml

inductive MomentError
  | year (given : Nat)
  | month
  | day
  | hour
  | minute
  | second
  | offset (displayed : String)
deriving DecidableEq

def MomentError.message : MomentError → String
  | year given => "year " ++ toString given ++ " is out of range"
  | month => "month must be in 1..12"
  | day => "day is out of range for month"
  | hour => "hour must be in 0..23"
  | minute => "minute must be in 0..59"
  | second => "second must be in 0..59"
  | offset displayed =>
      "offset must be a timedelta strictly between -timedelta(hours=24) and " ++
        "timedelta(hours=24), not " ++ displayed ++ "."

inductive Error
  | malformed
  | codePoint
  | codeTooLarge
  | notInteger (base : Nat) (text : String)
  | notNumber (text : String)
  | noNumber
  | notBool (text : String)
  | notMoment
  | moment (error : MomentError)
  | numberTooLarge
deriving DecidableEq

def Error.message? : Error → Option String
  | malformed => none
  | codePoint => some "chr() arg not in range(0x110000)"
  | codeTooLarge => some "Python int too large to convert to C int"
  | notInteger base text => some <|
      "invalid literal for int() with base " ++ toString base ++ ": " ++ Text.quoted text
  | notNumber text => some ("could not convert string to float: " ++ Text.quoted text)
  | noNumber => some "string index out of range"
  | notBool text => some (Text.quoted text)
  | notMoment => none
  | moment error => some error.message
  | numberTooLarge => some "int too large to convert to float"

end ApneaScoring.Yaml
