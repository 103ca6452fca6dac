import ApneaScoring.Number.Shortest

namespace ApneaScoring.Binary64

def signed (negative : Bool) (text : String) : String :=
  if negative then "-" ++ text else text

/-- From `10 ^ (-4)` up to `10 ^ ceiling` a number is written without an exponent. -/
structure Style where
  ceiling : Int
  marksWhole : Bool

def Style.full : Style := ⟨16, true⟩

def Style.brief : Style := ⟨6, false⟩

def padLeft (width : Nat) (cs : List Char) : List Char :=
  List.replicate (width - cs.length) '0' ++ cs

def exponentText (e : Int) : List Char :=
  (if e < 0 then '-' else '+') :: padLeft 2 (Nat.toDigits 10 e.natAbs)

def pointed (whole fraction : List Char) : List Char :=
  if fraction.isEmpty then whole else whole ++ '.' :: fraction

namespace Digits

def scientific (d : Digits) : List Char :=
  pointed (d.digits.take 1) (d.digits.drop 1) ++ 'e' :: exponentText d.exponent

def wholeAndFraction (d : Digits) : List Char × List Char :=
  match d.exponent with
  | .ofNat e =>
      (d.digits.take (e + 1) ++ List.replicate (e + 1 - d.digits.length) '0',
        d.digits.drop (e + 1))
  | .negSucc e => (['0'], List.replicate e '0' ++ d.digits)

def written (style : Style) (d : Digits) : String :=
  String.ofList <|
    if d.exponent < -4 || style.ceiling ≤ d.exponent then d.scientific
    else
      let (whole, fraction) := d.wholeAndFraction
      pointed whole (if fraction.isEmpty && style.marksWhole then ['0'] else fraction)

end Digits

def zeroText (style : Style) : String :=
  if style.marksWhole then "0.0" else "0"

/-- The shortest text that reads back as the number. -/
def text : Binary64 → String
  | finite s u _ =>
      signed s (if u = 0 then zeroText .full else (shortestDigits u).written .full)
  | infinite s => signed s "inf"
  | nan => "nan"

def briefText : Binary64 → String
  | finite s u _ =>
      signed s (if u = 0 then zeroText .brief else (roundedDigits 6 u).written .brief)
  | infinite s => signed s "inf"
  | nan => "nan"

def fixedDigits (places units : Nat) : List Char :=
  let scaled := padLeft (places + 1)
    (Nat.toDigits 10 (nearestEven (units * decimalUnit) (Nat.pow 10 (1074 - places))))
  let split := scaled.length - places
  pointed (scaled.take split) (scaled.drop split)

def fixedText (places : Nat) : Binary64 → String
  | finite s u _ => signed s (String.ofList (fixedDigits places u))
  | infinite s => signed s "inf"
  | nan => "nan"

end ApneaScoring.Binary64
