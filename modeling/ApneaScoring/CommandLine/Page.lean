import ApneaScoring.Card
import ApneaScoring.Datum.Numeric
import ApneaScoring.Number.Notation
import ApneaScoring.Text.Blank

namespace ApneaScoring.CommandLine

inductive Line
  | text (line : String)
  | row (cells : List String)
deriving DecidableEq

abbrev Page := List Line

namespace Page

def ofText (s : String) : Page :=
  (Text.split '\n' s).map fun line => .text (Text.stripEnd line)

def table (title : String) (header : List String) (rows : List (List String)) : Page :=
  .text title :: .row header :: rows.map .row

def isHidden (c : Char) : Bool :=
  c = '\x07' || c = '\x08' || c = '\x0b' || c = '\x0c' || c = '\r'

/-- Tabs reach to the next column that eight divides. -/
def expandTabs (column : Nat) : List Char → List Char
  | [] => []
  | c :: rest =>
      if c = '\t' then
        let width := 8 - column % 8
        List.replicate width ' ' ++ expandTabs (column + width) rest
      else c :: expandTabs (if c = '\n' then 0 else column + 1) rest

def shown (s : String) : Page :=
  ofText (String.ofList (expandTabs 0 (s.toList.filter (!isHidden ·))))

/-- Foreign text within a line. A backslash alone at its end is doubled, so that it
cannot act on what follows. -/
def safely (s : String) : String :=
  if s.endsWith "\\" && !s.endsWith "\\\\" then s ++ "\\" else s

def numberText (x : Option Binary64) : String :=
  match x with
  | some x => x.briefText
  | none => "-"

end Page

end ApneaScoring.CommandLine
