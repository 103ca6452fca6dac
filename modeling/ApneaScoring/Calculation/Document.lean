import ApneaScoring.Calculation.Wire
import ApneaScoring.Error
import ApneaScoring.Yaml.Document

namespace ApneaScoring.Calculation

def toYaml (calculation : Calculation) : Except WireError String :=
  calculation.toWire.map Yaml.write

def ofYaml (text : String) : Except ScoringError Calculation :=
  match Yaml.read text with
  | .error e => .error (.yaml e)
  | .ok data => match ofWire data with
      | .ok calculation => .ok calculation
      | .error e => .error (.wire e)

end ApneaScoring.Calculation
