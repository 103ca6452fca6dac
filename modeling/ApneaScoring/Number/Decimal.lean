import ApneaScoring.Number.Binary64
import ApneaScoring.Text.Blank
import ApneaScoring.Text.Digit

namespace ApneaScoring.Binary64

open Text

/-- The four separator controls end no number, though they are blank elsewhere. -/
def isNumberBlank (c : Char) : Bool :=
  isBlank c && !(0x1C ≤ c.toNat && c.toNat ≤ 0x1F)

def plainDigit (c : Char) : Char :=
  match digitValue? c with
  | some d => Char.ofNat (48 + d)
  | none => c

def withoutUnderscores? : Bool → List Char → Option (List Char)
  | _, [] => some []
  | _, ['_'] => none
  | afterDigit, '_' :: c :: rest =>
      if afterDigit && isDigit c then (withoutUnderscores? true rest).map (c :: ·) else none
  | _, c :: rest => (withoutUnderscores? (isDigit c) rest).map (c :: ·)

def splitSign : List Char → Bool × List Char
  | '-' :: rest => (true, rest)
  | '+' :: rest => (false, rest)
  | cs => (false, cs)

def readExponent? : List Char → Option Int
  | [] => some 0
  | mark :: rest =>
      let (negative, digits) := splitSign rest
      if (mark = 'e' || mark = 'E') && !digits.isEmpty && digits.all isDigit then
        let e : Int := natOfDigits digits
        some (if negative then -e else e)
      else none

def splitMantissa (cs : List Char) : List Char × List Char × List Char :=
  let rest := cs.dropWhile isDigit
  match rest with
  | '.' :: more => (cs.takeWhile isDigit, more.takeWhile isDigit, more.dropWhile isDigit)
  | _ => (cs.takeWhile isDigit, [], rest)

def readDecimal? (negative : Bool) (cs : List Char) : Option Binary64 :=
  let (whole, fraction, rest) := splitMantissa cs
  if whole.isEmpty && fraction.isEmpty then none
  else (readExponent? rest).map fun e =>
    ofDecimal negative (natOfDigits (whole ++ fraction)) (e - fraction.length)

def readUnsigned? (negative : Bool) (cs : List Char) : Option Binary64 :=
  match String.ofList (cs.map Char.toLower) with
  | "inf" => some (infinite negative)
  | "infinity" => some (infinite negative)
  | "nan" => some nan
  | _ => readDecimal? negative cs

def ofText? (s : String) : Option Binary64 := do
  let cs ← withoutUnderscores? false ((trimBoth isNumberBlank s.toList).map plainDigit)
  let (negative, rest) := splitSign cs
  readUnsigned? negative rest

end ApneaScoring.Binary64
