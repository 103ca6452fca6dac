import ApneaScoring.Yaml.Value

namespace ApneaScoring.Yaml

/-- A number text that reads back as a float: with a point, also before an exponent. -/
def pointBeforeExponent (cs : List Char) : List Char :=
  if cs.contains '.' then cs
  else
    let (digits, exponent) := cs.span (· != 'e')
    if exponent.isEmpty then digits else digits ++ '.' :: '0' :: exponent

def floatText : Binary64 → List Char
  | .infinite false => ".inf".toList
  | .infinite true => "-.inf".toList
  | .nan => ".nan".toList
  | x => pointBeforeExponent x.text.toList

def inline (indent column : Nat) : Datum → List Char
  | .null => "null".toList
  | .bool b => (if b then "true" else "false").toList
  | .integer i => (toString i).toList
  | .float x => floatText x
  | .text s => writeText indent column s.toList
  | .other displayed => writeText indent column displayed.toList
  | .list _ => ['[', ']']
  | .map _ => ['\x7b', '\x7d']

def spaces (n : Nat) : List Char :=
  List.replicate n ' '

def keyText (key : Datum) : List Char :=
  inline 0 0 key

mutual

def writeAt (column : Nat) : Datum → List Char
  | .map entries =>
      if entries.isEmpty then inline column column (.map []) ++ ['\n']
      else writeEntries [] column entries
  | .list items =>
      if items.isEmpty then inline column column (.list []) ++ ['\n']
      else writeItems [] column items
  | value => inline column column value ++ ['\n']

def writeValue (column keyLength : Nat) : Datum → List Char
  | .map entries =>
      if entries.isEmpty then ' ' :: inline column column (.map []) ++ ['\n']
      else '\n' :: writeEntries (spaces (column + 2)) (column + 2) entries
  | .list items =>
      if items.isEmpty then ' ' :: inline column column (.list []) ++ ['\n']
      else '\n' :: writeItems (spaces column) column items
  | value => ' ' :: inline (column + 2) (column + keyLength + 2) value ++ ['\n']

def writeEntries (lead : List Char) (column : Nat) : List (Datum × Datum) → List Char
  | [] => []
  | entry :: entries =>
      lead ++ writeEntry column entry ++ writeEntries (spaces column) column entries

def writeEntry (column : Nat) : Datum × Datum → List Char
  | (key, value) => keyText key ++ ':' :: writeValue column (keyText key).length value

def writeItems (lead : List Char) (column : Nat) : List Datum → List Char
  | [] => []
  | item :: items =>
      lead ++ '-' :: ' ' :: writeAt (column + 2) item ++
        writeItems (spaces column) column items

end

def isOpenEnded : Datum → Bool
  | .list _ => false
  | .map _ => false
  | .text s => isPlain s.toList
  | _ => true

/-- A plain scalar alone is followed by a marker of its end. -/
def write : Datum → String
  | .list items => String.ofList (writeAt 0 (.list items))
  | .map entries => String.ofList (writeAt 0 (.map entries))
  | value =>
      String.ofList (inline 2 0 value ++ '\n' ::
        if isOpenEnded value then "...\n".toList else [])

def read (text : String) : Except Error Datum := do
  match ← Node.ofTokens (Token.ofText text.toList) with
  | some root => do
      let tree ← root.toTree
      tree.toDatum.mapError (·.error)
  | none => return .null

end ApneaScoring.Yaml
