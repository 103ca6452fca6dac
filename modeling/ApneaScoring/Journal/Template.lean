import ApneaScoring.Datum.Display

namespace ApneaScoring.Journal

def wholePart : Datum → Option Int
  | .integer i => some i
  | .bool b => some (if b then 1 else 0)
  | .float (.finite s u _) => some (Binary64.signedUnits s (u / unitsPerOne))
  | _ => none

def asFloat : Datum → Option Binary64
  | .integer i => Binary64.ofInt? i
  | .bool b => Binary64.ofInt? (if b then 1 else 0)
  | .float x => some x
  | _ => none

def formed (letter : Char) (value : Datum) : Option String :=
  match letter with
  | 's' => some value.plain
  | 'r' => some value.display
  | 'd' => (wholePart value).map toString
  | 'i' => (wholePart value).map toString
  | 'g' => (asFloat value).map (·.briefText)
  | 'f' => (asFloat value).map (·.fixedText 6)
  | _ => none

/-- The message with its values in place, if their number and kinds fit. -/
def fill : List Char → List Datum → Option (List Char)
  | [], [] => some []
  | [], _ :: _ => none
  | '%' :: '%' :: rest, values => (fill rest values).map ('%' :: ·)
  | '%' :: letter :: rest, value :: values => do
      let text ← formed letter value
      let more ← fill rest values
      return text.toList ++ more
  | '%' :: _, _ => none
  | c :: rest, values => (fill rest values).map (c :: ·)

def message? (template : String) (values : List Datum) : Option String :=
  if values.isEmpty then some template
  else (fill template.toList values).map String.ofList

end ApneaScoring.Journal
