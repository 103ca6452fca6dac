import ApneaScoring.Datum.Basic
import ApneaScoring.Number.Notation
import ApneaScoring.Text.Quoted

namespace ApneaScoring.Datum

open Text

def separated (pieces : List String) : String :=
  ", ".intercalate pieces

mutual

def display : Datum → String
  | null => "None"
  | bool b => if b then "True" else "False"
  | integer i => toString i
  | float x => x.text
  | text s => quoted s
  | other displayed => displayed
  | list items => "[" ++ separated (displayItems items) ++ "]"
  | map entries => "\x7b" ++ separated (displayEntries entries) ++ "\x7d"

def displayItems : List Datum → List String
  | [] => []
  | item :: items => display item :: displayItems items

def displayEntries : List (Datum × Datum) → List String
  | [] => []
  | entry :: entries => displayEntry entry :: displayEntries entries

def displayEntry : Datum × Datum → String
  | (key, value) => display key ++ ": " ++ display value

end

/-- The first number with more digits than are ever displayed. -/
def displayBound : Nat := Nat.pow 10 4300

mutual

def isDisplayable : Datum → Bool
  | integer i => i.natAbs < displayBound
  | list items => areDisplayable items
  | map entries => entriesDisplayable entries
  | _ => true

def areDisplayable : List Datum → Bool
  | [] => true
  | item :: items => isDisplayable item && areDisplayable items

def entriesDisplayable : List (Datum × Datum) → Bool
  | [] => true
  | entry :: entries => entryDisplayable entry && entriesDisplayable entries

def entryDisplayable : Datum × Datum → Bool
  | (key, value) => isDisplayable key && isDisplayable value

end

theorem isDisplayable_ofNat (n : Nat) :
    (integer (.ofNat n)).isDisplayable = decide (n < displayBound) := by
  rw [isDisplayable]
  rfl

theorem isDisplayable_displayBound : (integer (.ofNat displayBound)).isDisplayable = false := by
  rw [isDisplayable_ofNat]
  exact decide_eq_false (Nat.lt_irrefl displayBound)

theorem ne_null_of_undisplayable {d : Datum} (h : d.isDisplayable = false) : d ≠ .null := by
  rintro rfl
  cases h

/-- A refusal displays the value that it refuses, and fails over one that cannot be displayed. -/
def refusal {ε : Type} (given : Datum) (error undisplayable : ε) : ε :=
  if given.isDisplayable then error else undisplayable

section

variable {ε : Type} {given : Datum} {error undisplayable : ε}

theorem refusal_of_displayable (h : given.isDisplayable = true) :
    given.refusal error undisplayable = error := by
  simp [refusal, h]

theorem refusal_of_undisplayable (h : given.isDisplayable = false) :
    given.refusal error undisplayable = undisplayable := by
  simp [refusal, h]

theorem refusal_eq_error (h : error ≠ undisplayable) :
    given.refusal error undisplayable = error ↔ given.isDisplayable = true := by
  cases hgiven : given.isDisplayable with
  | true => simp [refusal_of_displayable hgiven]
  | false => simp [refusal_of_undisplayable hgiven, Ne.symm h]

theorem refusal_eq_undisplayable (h : error ≠ undisplayable) :
    given.refusal error undisplayable = undisplayable ↔ given.isDisplayable = false := by
  cases hgiven : given.isDisplayable with
  | true => simp [refusal_of_displayable hgiven, h]
  | false => simp [refusal_of_undisplayable hgiven]

theorem refusal_ne {other : ε} (h : error ≠ other) (h' : undisplayable ≠ other) :
    given.refusal error undisplayable ≠ other := by
  unfold refusal
  split
  · exact h
  · exact h'

end

def undisplayableText : String :=
  "Exceeds the limit (4300 digits) for integer string conversion; " ++
    "use sys.set_int_max_str_digits() to increase the limit"

def plain : Datum → String
  | text s => s
  | d => d.display

def kindName : Datum → String
  | null => "NoneType"
  | bool _ => "bool"
  | integer _ => "int"
  | float _ => "float"
  | text _ => "str"
  | other _ => "object"
  | list _ => "list"
  | map _ => "dict"

def displayTexts (texts : List String) : String :=
  (list (texts.map text)).display

end ApneaScoring.Datum
