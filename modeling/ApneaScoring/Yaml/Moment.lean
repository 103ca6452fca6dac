import ApneaScoring.Text.Digit
import ApneaScoring.Yaml.Error

namespace ApneaScoring.Yaml

open Text

/-- An offset from universal time. -/
structure Offset where
  negative : Bool
  hours : Nat
  minutes : Nat
deriving DecidableEq

namespace Offset

def seconds (o : Offset) : Int :=
  let n : Int := 3600 * o.hours + 60 * o.minutes
  if o.negative then -n else n

def universal : Offset := ⟨false, 0, 0⟩

def displayDuration (o : Offset) : String :=
  let days := o.seconds / 86400
  let rest := o.seconds % 86400
  let parts := (if days = 0 then [] else ["days=" ++ toString days]) ++
    (if rest = 0 then [] else ["seconds=" ++ toString rest])
  "datetime.timedelta(" ++ ", ".intercalate (if parts.isEmpty then ["0"] else parts) ++ ")"

def isValid (o : Offset) : Bool :=
  o.seconds.natAbs < 86400

def display (o : Offset) : String :=
  if o.seconds = 0 then "datetime.timezone.utc"
  else "datetime.timezone(" ++ o.displayDuration ++ ")"

end Offset

structure ClockTime where
  hour : Nat
  minute : Nat
  second : Nat
  microsecond : Nat
  offset : Option Offset
deriving DecidableEq

structure Moment where
  year : Nat
  month : Nat
  day : Nat
  time : Option ClockTime
deriving DecidableEq

namespace Moment

def number? (least most : Nat) (cs : List Char) : Option (Nat × List Char) :=
  let digits := (cs.take most).takeWhile isDigit
  if least ≤ digits.length then some (natOfDigits digits, cs.drop digits.length) else none

def past? (separator : Char) : List Char → Option (List Char)
  | c :: rest => if c = separator then some rest else none
  | [] => none

def isBlank (c : Char) : Bool :=
  c = ' ' || c = '\t'

def microseconds (digits : List Char) : Nat :=
  natOfDigits (digits.take 6 ++ List.replicate (6 - digits.length) '0')

def fraction : List Char → Nat × List Char
  | '.' :: rest => (microseconds (rest.takeWhile isDigit), rest.dropWhile isDigit)
  | cs => (0, cs)

def offsetAfterSign? (negative : Bool) (cs : List Char) : Option Offset := do
  let (hours, rest) ← number? 1 2 cs
  match rest with
  | [] => return ⟨negative, hours, 0⟩
  | _ =>
      let rest ← past? ':' rest
      let (minutes, rest) ← number? 2 2 rest
      if rest.isEmpty then return ⟨negative, hours, minutes⟩ else none

def offset? (cs : List Char) : Option (Option Offset) :=
  if cs.isEmpty then some none
  else match cs.dropWhile isBlank with
    | ['Z'] => some (some .universal)
    | '+' :: rest => (offsetAfterSign? false rest).map some
    | '-' :: rest => (offsetAfterSign? true rest).map some
    | _ => none

def clockTime? (cs : List Char) : Option ClockTime := do
  let (hour, rest) ← number? 1 2 cs
  let rest ← past? ':' rest
  let (minute, rest) ← number? 2 2 rest
  let rest ← past? ':' rest
  let (second, rest) ← number? 2 2 rest
  let (microsecond, rest) := fraction rest
  let offset ← offset? rest
  return ⟨hour, minute, second, microsecond, offset⟩

def pastSeparator? : List Char → Option (List Char)
  | 'T' :: rest => some rest
  | 't' :: rest => some rest
  | c :: rest => if isBlank c then some (rest.dropWhile isBlank) else none
  | [] => none

def ofText? (cs : List Char) : Option Moment := do
  let (year, rest) ← number? 4 4 cs
  let rest ← past? '-' rest
  let (month, rest) ← number? 1 2 rest
  let rest ← past? '-' rest
  let (day, rest) ← number? 1 2 rest
  if rest.isEmpty then return ⟨year, month, day, none⟩
  else
    let rest ← pastSeparator? rest
    let time ← clockTime? rest
    return ⟨year, month, day, some time⟩

/-- Whether a text is a moment by its form alone. A date without a time then has two
digits for its month and its day. -/
def isForm (cs : List Char) : Bool :=
  match ofText? cs with
  | some m => m.time.isSome || cs.length = 10
  | none => false

def isLeap (year : Nat) : Bool :=
  year % 4 = 0 && (year % 100 != 0 || year % 400 = 0)

def daysIn (year month : Nat) : Nat :=
  if month = 2 then if isLeap year then 29 else 28
  else if month = 4 || month = 6 || month = 9 || month = 11 then 30
  else 31

def dateFault? (m : Moment) : Option MomentError :=
  if m.year = 0 then some (.year m.year)
  else if m.month = 0 || 12 < m.month then some .month
  else if m.day = 0 || daysIn m.year m.month < m.day then some .day
  else none

def offsetFault? (t : ClockTime) : Option MomentError :=
  match t.offset with
  | some o => if o.isValid then none else some (.offset o.displayDuration)
  | none => none

def clockFault? (t : ClockTime) : Option MomentError :=
  if 23 < t.hour then some .hour
  else if 59 < t.minute then some .minute
  else if 59 < t.second then some .second
  else none

/-- The first thing wrong with a moment; an offset is looked at before the date. -/
def fault? (m : Moment) : Option MomentError :=
  match m.time with
  | none => m.dateFault?
  | some t => (offsetFault? t).or (m.dateFault?.or (clockFault? t))

def numbers (ns : List Nat) : List String :=
  ns.map toString

def clockNumbers (t : ClockTime) : List Nat :=
  [t.hour, t.minute] ++
    if t.microsecond != 0 then [t.second, t.microsecond]
    else if t.second != 0 then [t.second]
    else []

def offsetNote (t : ClockTime) : List String :=
  match t.offset with
  | some o => ["tzinfo=" ++ o.display]
  | none => []

def display (m : Moment) : String :=
  let date := [m.year, m.month, m.day]
  match m.time with
  | none => "datetime.date(" ++ ", ".intercalate (numbers date) ++ ")"
  | some t =>
      "datetime.datetime(" ++
        ", ".intercalate (numbers (date ++ clockNumbers t) ++ offsetNote t) ++ ")"

end Moment

end ApneaScoring.Yaml
