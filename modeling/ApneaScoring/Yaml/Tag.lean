import ApneaScoring.Yaml.Character
import ApneaScoring.Yaml.Scalar

namespace ApneaScoring.Yaml

open Text

def isWordChar (c : Char) : Bool :=
  isDigit c || ('A' ≤ c && c ≤ 'Z') || ('a' ≤ c && c ≤ 'z') || c = '-' || c = '_'

def endsName : List Char → Bool
  | [] => true
  | c :: _ => isGap c || "?:,]\x7d%@".toList.contains c || c = '\x60'

def readName (cs : List Char) : Except Error (String × List Char) :=
  let name := cs.takeWhile isWordChar
  let rest := cs.dropWhile isWordChar
  if name.isEmpty || !endsName rest then .error .malformed
  else .ok (String.ofList name, rest)

def atSpace : List Char → Bool
  | [] => true
  | c :: _ => c = ' ' || isBreak c

def isTagChar (c : Char) : Bool :=
  isWordChar c || "%;/?:@&=+$,.!~*'()[]".toList.contains c

def tagBytes? : List Char → Option (List UInt8)
  | '%' :: a :: b :: rest => do
      let n ← Number.numeralIn? 16 [a, b]
      let bytes ← tagBytes? rest
      return n.toUInt8 :: bytes
  | c :: rest => if c = '%' then none else (tagBytes? rest).map (c.toNat.toUInt8 :: ·)
  | [] => some []

def readTagText (cs : List Char) : Except Error (String × List Char) :=
  let written := cs.takeWhile isTagChar
  match tagBytes? written >>= fun bytes => String.fromUTF8? ⟨bytes.toArray⟩ with
  | some text =>
      if written.isEmpty then .error .malformed else .ok (text, cs.dropWhile isTagChar)
  | none => .error .malformed

def readHandle : List Char → Except Error (String × List Char)
  | ' ' :: rest => .ok ("!", ' ' :: rest)
  | cs => match cs.dropWhile isWordChar with
      | '!' :: rest => .ok ("!" ++ String.ofList (cs.takeWhile isWordChar) ++ "!", rest)
      | _ => .error .malformed

abbrev Handles := List (String × String)

def standardStart : String := "tag:yaml.org,2002:"

def standardHandles : Handles := [("!", "!"), ("!!", standardStart)]

def standardKinds : List (String × Kind) := [
  ("null", .null), ("bool", .bool), ("int", .integer), ("float", .float),
  ("timestamp", .moment), ("binary", .binary), ("merge", .merge), ("value", .default),
  ("str", .text), ("seq", .list), ("map", .map), ("set", .set), ("omap", .orderedMap),
  ("pairs", .pairs)]

def Kind.ofName (name : String) : Kind :=
  match standardKinds.find? fun entry => standardStart ++ entry.1 = name with
  | some (_, kind) => kind
  | none => .unknown

/-- What is said of the kind of a node. -/
inductive Tag
  /-- It is told from the form, as if the text were plain. -/
  | asPlain
  | kind (kind : Kind)
deriving DecidableEq

def Tag.ofName (name : String) : Tag :=
  if name = "!" then asPlain else kind (Kind.ofName name)

def readShortTag (handles : Handles) (cs : List Char) : Except Error (Tag × List Char) := do
  let word := cs.takeWhile (!atSpace [·])
  let (handle, rest) ← if word.contains '!' then readHandle cs else .ok ("!", cs)
  let (text, rest) ← readTagText rest
  match (handles ++ standardHandles).lookup handle with
  | some start => return (Tag.ofName (start ++ text), rest)
  | none => throw .malformed

def readTag (handles : Handles) (cs : List Char) : Except Error (Tag × List Char) := do
  let (tag, rest) ← match cs with
    | '<' :: rest => do
        let (text, rest) ← readTagText rest
        match rest with
        | '>' :: rest => Except.ok (Tag.ofName text, rest)
        | _ => .error .malformed
    | cs => if atGap cs then .ok (Tag.asPlain, cs) else readShortTag handles cs
  if atSpace rest then return (tag, rest) else throw .malformed

end ApneaScoring.Yaml
