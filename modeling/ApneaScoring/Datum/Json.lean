import ApneaScoring.Datum.Display

namespace ApneaScoring.Datum

def jsonUnit (n : Nat) : List Char :=
  '\\' :: 'u' :: Text.hexDigits 4 n

/-- Characters past the first plane are written as two surrogates. -/
def jsonCode (n : Nat) : List Char :=
  if n < 0x10000 then jsonUnit n
  else
    let m := n - 0x10000
    jsonUnit (0xD800 + m / 0x400) ++ jsonUnit (0xDC00 + m % 0x400)

def jsonCharacter (c : Char) : List Char :=
  match c with
  | '"' => ['\\', '"']
  | '\\' => ['\\', '\\']
  | '\n' => ['\\', 'n']
  | '\r' => ['\\', 'r']
  | '\t' => ['\\', 't']
  | '\x08' => ['\\', 'b']
  | '\x0c' => ['\\', 'f']
  | c => if ' ' ≤ c && c ≤ '~' then [c] else jsonCode c.toNat

def jsonText (s : String) : List Char :=
  '"' :: s.toList.flatMap jsonCharacter ++ ['"']

def jsonFloat : Binary64 → String
  | .infinite false => "Infinity"
  | .infinite true => "-Infinity"
  | .nan => "NaN"
  | x => x.text

def jsonBreak (indent : Nat) : List Char :=
  '\n' :: List.replicate indent ' '

mutual

def toJson (indent : Nat) : Datum → List Char
  | null => "null".toList
  | bool b => (if b then "true" else "false").toList
  | integer i => (toString i).toList
  | float x => (jsonFloat x).toList
  | text s => jsonText s
  | other displayed => jsonText displayed
  | list items =>
      if items.isEmpty then ['[', ']']
      else '[' :: jsonItems (indent + 2) [] items ++ jsonBreak indent ++ [']']
  | map entries =>
      if entries.isEmpty then ['\x7b', '\x7d']
      else '\x7b' :: jsonEntries (indent + 2) [] entries ++ jsonBreak indent ++ ['\x7d']

def jsonItems (indent : Nat) (separator : List Char) : List Datum → List Char
  | [] => []
  | item :: items =>
      separator ++ jsonBreak indent ++ toJson indent item ++ jsonItems indent [','] items

def jsonEntries (indent : Nat) (separator : List Char) : List (Datum × Datum) → List Char
  | [] => []
  | entry :: entries =>
      separator ++ jsonBreak indent ++ jsonEntry indent entry ++
        jsonEntries indent [','] entries

def jsonEntry (indent : Nat) : Datum × Datum → List Char
  | (key, value) => jsonText key.plain ++ ':' :: ' ' :: toJson indent value

end

def json (d : Datum) : String :=
  String.ofList (d.toJson 0)

end ApneaScoring.Datum
