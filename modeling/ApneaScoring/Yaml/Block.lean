import ApneaScoring.Yaml.Character
import ApneaScoring.Yaml.Error

namespace ApneaScoring.Yaml

/-- What becomes of the line breaks at the end. -/
inductive Chomping
  | drop
  | keepOne
  | keepAll
deriving DecidableEq

structure BlockHeader where
  chomping : Chomping
  /-- The columns past the ones around the text, if they are given. -/
  increment : Option Nat
deriving DecidableEq

def pastLine? (cs : List Char) : Option (List Char) :=
  let rest := cs.dropWhile (· = ' ')
  let rest := if rest.head? = some '#' then rest.dropWhile (!isBreak ·) else rest
  match rest with
  | [] => some []
  | c :: rest => if isBreak c then some rest else none

def takeChomping : List Char → Chomping × List Char
  | '-' :: rest => (.drop, rest)
  | '+' :: rest => (.keepAll, rest)
  | cs => (.keepOne, cs)

def takeIncrement : List Char → Option Nat × List Char
  | c :: rest => if '0' ≤ c && c ≤ '9' then (some (c.toNat - 48), rest) else (none, c :: rest)
  | [] => (none, [])

def takeHeader (cs : List Char) : BlockHeader × List Char :=
  match takeIncrement cs with
  | (some n, rest) =>
      let (chomping, rest) := takeChomping rest
      (⟨chomping, some n⟩, rest)
  | (none, _) =>
      let (chomping, rest) := takeChomping cs
      let (increment, rest) := takeIncrement rest
      (⟨chomping, increment⟩, rest)

def readHeader (cs : List Char) : Except Error (BlockHeader × List Char) :=
  let (header, rest) := takeHeader cs
  if header.increment = some 0 || rest.head? = some '#' then .error .malformed
  else match pastLine? rest with
    | some lines => .ok (header, lines)
    | none => .error .malformed

/-- A place in the lines of a text, with the line breaks before it. -/
structure LineStart where
  breaks : List Char
  column : Nat
  rest : List Char

def firstLine (column deepest : Nat) : List Char → LineStart × Nat
  | [] => (⟨[], column, []⟩, deepest)
  | c :: rest =>
      if c = ' ' then firstLine (column + 1) (max deepest (column + 1)) rest
      else if isBreak c then
        let (start, deepest) := firstLine 0 deepest rest
        ({ start with breaks := c :: start.breaks }, deepest)
      else (⟨[], column, c :: rest⟩, deepest)

def nextLine (indent column : Nat) : List Char → LineStart
  | [] => ⟨[], column, []⟩
  | c :: rest =>
      if c = ' ' && column < indent then nextLine indent (column + 1) rest
      else if isBreak c then
        let start := nextLine indent 0 rest
        { start with breaks := c :: start.breaks }
      else ⟨[], column, c :: rest⟩

def LineStart.continues (start : LineStart) (indent : Nat) : Bool :=
  start.column = indent && !start.rest.isEmpty

def startsBlank : List Char → Bool
  | c :: _ => c = ' ' || c = '\t'
  | [] => false

/-- What stands for the break between two lines, which more breaks may follow. -/
def joint (isFolded : Bool) (line lineBreak : List Char) (next : LineStart) : List Char :=
  if isFolded && lineBreak == ['\n'] && !startsBlank line && !startsBlank next.rest then
    if next.breaks.isEmpty then [' '] else []
  else lineBreak

def tail (chomping : Chomping) (lineBreak breaks : List Char) : List Char :=
  match chomping with
  | .drop => []
  | .keepOne => lineBreak
  | .keepAll => lineBreak ++ breaks

def blockLines (isFolded : Bool) (chomping : Chomping) (indent : Nat) (cs : List Char) :
    List Char × List Char :=
  let line := cs.takeWhile (!isBreak ·)
  let rest := cs.dropWhile (!isBreak ·)
  let lineBreak := rest.take 1
  let next := nextLine indent 0 rest.tail
  if h : next.rest.length < cs.length ∧ next.continues indent then
    have := h.1
    let more := blockLines isFolded chomping indent next.rest
    (line ++ joint isFolded line lineBreak next ++ next.breaks ++ more.1, more.2)
  else (line ++ tail chomping lineBreak next.breaks, next.rest)
termination_by cs.length

/-- The text after the sign of a block text, and what follows it. The text is deeper
than the columns around it, at least by the given number. -/
def readBlock (isFolded : Bool) (least : Nat) (cs : List Char) :
    Except Error (List Char × List Char) := do
  let (header, lines) ← readHeader cs
  let (start, indent) := match header.increment with
    | some n => (nextLine (least + n - 1) 0 lines, least + n - 1)
    | none =>
        let (start, deepest) := firstLine 0 0 lines
        (start, max least deepest)
  if start.continues indent then
    let (text, rest) := blockLines isFolded header.chomping indent start.rest
    return (start.breaks ++ text, rest)
  else return (tail header.chomping [] start.breaks, start.rest)

end ApneaScoring.Yaml
