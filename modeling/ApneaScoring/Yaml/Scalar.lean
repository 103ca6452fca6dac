import ApneaScoring.Datum.Numeric
import ApneaScoring.Number.Integer
import ApneaScoring.Text.Base64
import ApneaScoring.Yaml.Moment

namespace ApneaScoring.Yaml

open Text

inductive Kind
  | null
  | bool
  | integer
  | float
  | moment
  | binary
  | merge
  /-- The key of a default, a sign without a value of its own. -/
  | default
  | text
  | list
  | map
  | set
  | orderedMap
  | pairs
  | unknown
deriving DecidableEq

def trueTexts : List String := ["yes", "true", "on"]

def falseTexts : List String := ["no", "false", "off"]

def isBarred (c : Char) : Bool :=
  isDigit c || c = '_'

def isSignOf (c : Char) : Bool :=
  c = '-' || c = '+'

def dropSign : List Char → List Char
  | c :: rest => if isSignOf c then rest else c :: rest
  | [] => []

def capitalized : List Char → List Char
  | c :: rest => c.toUpper :: rest
  | [] => []

def isCased (word text : List Char) : Bool :=
  text == word || text == capitalized word || text == word.map Char.toUpper

def isBoolText (cs : List Char) : Bool :=
  (trueTexts ++ falseTexts).any fun word => isCased word.toList cs

def isNullText (cs : List Char) : Bool :=
  cs.isEmpty || cs == ['~'] || isCased "null".toList cs

def isExponent : List Char → Bool
  | [] => true
  | e :: sign :: digits =>
      (e = 'e' || e = 'E') && isSignOf sign && !digits.isEmpty && digits.all isDigit
  | [_] => false

def dropSixties : List Char → List Char
  | ':' :: a :: b :: rest =>
      if '0' ≤ a && a ≤ '5' && isDigit b then dropSixties rest
      else if isDigit a then dropSixties (b :: rest)
      else ':' :: a :: b :: rest
  | [':', a] => if isDigit a then [] else [':', a]
  | cs => cs

def startsWithDigit : List Char → Bool
  | c :: _ => isDigit c
  | [] => false

def isPointed (cs : List Char) : Bool :=
  startsWithDigit cs && match cs.dropWhile isBarred with
    | '.' :: rest => isExponent (rest.dropWhile isBarred)
    | _ => false

def isFraction : List Char → Bool
  | '.' :: rest => startsWithDigit rest && isExponent (rest.dropWhile isBarred)
  | _ => false

def isSexagesimalFloat (cs : List Char) : Bool :=
  startsWithDigit cs && match cs.dropWhile isBarred with
    | ':' :: rest => match dropSixties (':' :: rest) with
        | '.' :: rest => rest.all isBarred
        | _ => false
    | _ => false

def isFloatText (cs : List Char) : Bool :=
  isPointed (dropSign cs) || isFraction cs || isSexagesimalFloat (dropSign cs) ||
    [".inf", ".Inf", ".INF"].any (·.toList == dropSign cs) ||
    [".nan", ".NaN", ".NAN"].any (·.toList == cs)

def isHexDigit (c : Char) : Bool :=
  isDigit c || ('a' ≤ c && c ≤ 'f') || ('A' ≤ c && c ≤ 'F')

def isUnsigned : List Char → Bool
  | ['0'] => true
  | '0' :: 'b' :: digits => !digits.isEmpty && digits.all fun c => c = '0' || c = '1' || c = '_'
  | '0' :: 'x' :: digits => !digits.isEmpty && digits.all fun c => isHexDigit c || c = '_'
  | '0' :: digits => digits.all fun c => ('0' ≤ c && c ≤ '7') || c = '_'
  | cs => startsWithDigit cs && (dropSixties (cs.dropWhile isBarred)).isEmpty

def isIntegerText (cs : List Char) : Bool :=
  isUnsigned (dropSign cs)

def Kind.ofText (cs : List Char) : Kind :=
  if isBoolText cs then bool
  else if isFloatText cs then float
  else if isIntegerText cs then integer
  else if cs == ['<', '<'] then merge
  else if isNullText cs then null
  else if Moment.isForm cs then moment
  else if cs == ['='] then default
  else text

def integerIn (base : Nat) (cs : List Char) : Except Error Int :=
  match Number.integerIn? base cs with
  | some i => .ok i
  | none => .error (.notInteger base (String.ofList cs))

def sexagesimal (parts : List (List Char)) : Except Error Int :=
  parts.foldlM (fun n part => (integerIn 10 part).map (60 * n + ·)) 0

def unsignedInteger : List Char → Except Error Int
  | [] => .error .noNumber
  | '0' :: 'b' :: digits => integerIn 2 digits
  | '0' :: 'x' :: digits => integerIn 16 digits
  | '0' :: digits => integerIn 8 ('0' :: digits)
  | cs => sexagesimal (splitAt ':' cs)

def withoutBars (cs : List Char) : List Char :=
  cs.filter (· != '_')

def isNegative (cs : List Char) : Bool :=
  cs.head? = some '-'

def integerValue (text : List Char) : Except Error Int := do
  let cs := withoutBars text
  let i ← unsignedInteger (dropSign cs)
  return if isNegative cs then -i else i

def decimalValue (cs : List Char) : Except Error Binary64 :=
  match Binary64.ofText? (String.ofList cs) with
  | some x => .ok x
  | none => .error (.notNumber (String.ofList cs))

def sexagesimalFloat (parts : List (List Char)) : Except Error Binary64 := do
  let numbers ← parts.mapM decimalValue
  let (total, _) ← numbers.reverse.foldlM
    (fun (sum : Binary64 × Int) x =>
      match Binary64.ofInteger sum.2 with
      | .ok scale => Except.ok (sum.1 + x * scale, 60 * sum.2)
      | .error _ => .error Error.numberTooLarge)
    (Binary64.zero, 1)
  return total

def unsignedFloat (cs : List Char) : Except Error Binary64 :=
  if cs == ".inf".toList then .ok (.infinite false)
  else if cs == ".nan".toList then .ok .nan
  else if cs.contains ':' then sexagesimalFloat (splitAt ':' cs)
  else decimalValue cs

def floatValue (text : List Char) : Except Error Binary64 := do
  let cs := (withoutBars text).map Char.toLower
  if cs.isEmpty then throw .noNumber
  let x ← unsignedFloat (dropSign cs)
  return if isNegative cs then -x else x

def boolValue (text : String) : Except Error Bool :=
  if trueTexts.contains (lower text) then .ok true
  else if falseTexts.contains (lower text) then .ok false
  else .error (.notBool (lower text))

def momentValue (cs : List Char) : Except Error Datum :=
  match Moment.ofText? cs with
  | none => .error .notMoment
  | some m => match m.fault? with
      | some e => .error (.moment e)
      | none => .ok (.other m.display)

def binaryValue (cs : List Char) : Except Error Datum :=
  match bytesOf? cs with
  | some bytes => .ok (.other (quotedBytes bytes))
  | none => .error .malformed

def Kind.value (kind : Kind) (text : String) : Except Error Datum :=
  match kind with
  | .null => .ok .null
  | .bool => (boolValue text).map .bool
  | .integer => (integerValue text.toList).map .integer
  | .float => (floatValue text.toList).map .float
  | .moment => momentValue text.toList
  | .binary => binaryValue text.toList
  | .text => .ok (.text text)
  | _ => .error .malformed

end ApneaScoring.Yaml
