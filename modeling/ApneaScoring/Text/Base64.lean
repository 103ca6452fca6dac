import ApneaScoring.Text.Quoted

namespace ApneaScoring.Text

def sixBits? (c : Char) : Option Nat :=
  let n := c.toNat
  if 'A' ≤ c && c ≤ 'Z' then some (n - 65)
  else if 'a' ≤ c && c ≤ 'z' then some (n - 71)
  else if '0' ≤ c && c ≤ '9' then some (n + 4)
  else if c = '+' then some 62
  else if c = '/' then some 63
  else none

def completedByte (group : List Nat) (bits : Nat) : List Nat :=
  match group with
  | [a] => [4 * a + bits / 16]
  | [_, b] => [16 * (b % 16) + bits / 4]
  | [_, _, c] => [64 * (c % 4) + bits]
  | _ => []

/-- The bytes of letters that come after those of an incomplete group and its padding.
Other characters do not count, and nothing is read past a padded group. -/
def bytesAfter? (group : List Nat) (padding : Nat) : List Char → Option (List Nat)
  | [] => if group.isEmpty then some [] else none
  | c :: rest =>
      if c = '=' then
        if group.length < 2 then bytesAfter? group padding rest
        else if 4 ≤ group.length + padding + 1 then some []
        else bytesAfter? group (padding + 1) rest
      else match sixBits? c with
        | none => bytesAfter? group padding rest
        | some bits =>
            let next := if group.length = 3 then [] else group ++ [bits]
            (bytesAfter? next 0 rest).map (completedByte group bits ++ ·)

def isAscii (c : Char) : Bool :=
  c.toNat < 0x80

def bytesOf? (cs : List Char) : Option (List Nat) :=
  if cs.all isAscii then bytesAfter? [] 0 cs else none

def escapeByte (quote : Char) (n : Nat) : List Char :=
  if n < 0x7F then escapeQuoted quote (Char.ofNat n) else '\\' :: 'x' :: hexDigits 2 n

def quotedBytes (bytes : List Nat) : String :=
  let quote := quoteFor (bytes.map Char.ofNat)
  String.ofList ('b' :: quote :: bytes.flatMap (escapeByte quote) ++ [quote])

end ApneaScoring.Text
