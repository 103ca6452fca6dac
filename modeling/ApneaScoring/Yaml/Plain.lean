import ApneaScoring.Yaml.Quoted

namespace ApneaScoring.Yaml

def isFlowSign (c : Char) : Bool :=
  c = ',' || c = '[' || c = ']' || c = '\x7b' || c = '\x7d'

def startsWith (p : Char → Bool) : List Char → Bool
  | c :: _ => p c
  | [] => false

def wordEnds (inFlow : Bool) : List Char → Bool
  | [] => true
  | c :: rest =>
      isGap c || (c = ':' && (atGap rest || inFlow && startsWith isFlowSign rest)) ||
        (inFlow && (c = '?' || isFlowSign c))

def takeWord (inFlow : Bool) : List Char → List Char × List Char
  | [] => ([], [])
  | c :: rest =>
      if wordEnds inFlow (c :: rest) then ([], c :: rest)
      else
        let (word, after) := takeWord inFlow rest
        (c :: word, after)

/-- What stands between two plain words. -/
structure WordGap where
  text : List Char
  /-- Where the rest begins, if on another line. -/
  column : Option Nat
  rest : List Char

def isSpace (c : Char) : Bool :=
  c = ' '

def wordGap (cs : List Char) : WordGap :=
  match cs.dropWhile isSpace with
  | c :: rest =>
      if isBreak c then
        let (breaks, column, rest) := emptyLines isSpace 0 rest
        ⟨foldedBreaks c breaks, some column, rest⟩
      else ⟨cs.takeWhile isSpace, none, c :: rest⟩
  | [] => ⟨cs.takeWhile isSpace, none, []⟩

/-- Whether plain text may go on after a gap. Outside flow collections it has to be
indented at least to a column, and no line may start with a document marker. -/
def WordGap.continues (gap : WordGap) (inFlow : Bool) (least : Nat) : Bool :=
  !gap.text.isEmpty && gap.rest.head? != some '#' &&
    match gap.column with
    | some column =>
        (inFlow || least ≤ column) && !(column = 0 && atMarker gap.rest)
    | none => true

/-- Plain text, what follows it and the blanks after it, and whether these end a
line. -/
structure PlainText where
  text : List Char
  rest : List Char
  endsLine : Bool

def readPlain (inFlow : Bool) (least : Nat) (cs : List Char) : PlainText :=
  let word := takeWord inFlow cs
  let gap := wordGap word.2
  if h : gap.rest.length < cs.length ∧ gap.continues inFlow least ∧
      wordEnds inFlow gap.rest = false then
    have := h.1
    let more := readPlain inFlow least gap.rest
    ⟨word.1 ++ gap.text ++ more.text, more.rest, more.endsLine⟩
  else ⟨word.1, gap.rest, gap.column.isSome⟩
termination_by cs.length

def isSign (c : Char) : Bool :=
  isFlowSign c || "#&*!|>'\"%@".toList.contains c || c = '\x60'

def startsPlain (inFlow : Bool) : List Char → Bool
  | c :: rest =>
      if c = '-' then !atGap rest
      else if c = '?' || c = ':' then !inFlow && !atGap rest
      else !(isSign c || isGap c)
  | [] => false

def hasInnerSign : List Char → Bool
  | c :: d :: rest =>
      (c = ':' && isGap d) || (isGap c && d = '#') || hasInnerSign (d :: rest)
  | [c] => c = ':'
  | [] => false

def beginsWithSign : List Char → Bool
  | c :: rest =>
      isSign c || ((c = '-' || c = '?' || c = ':') && atGap rest) ||
        startsWith3 '-' (c :: rest) || startsWith3 '.' (c :: rest)
  | [] => true
where
  startsWith3 (mark : Char) (cs : List Char) : Bool :=
    cs.take 3 == [mark, mark, mark]

def endsWithSpace (cs : List Char) : Bool :=
  cs.getLast? = some ' '

/-- Whether a line of text outside flow collections may hold the text as it is. -/
def fitsPlain (cs : List Char) : Bool :=
  !beginsWithSign cs && !hasInnerSign cs && cs.head? != some ' ' && !endsWithSpace cs &&
    cs.all isPlainAscii

def isPlain (cs : List Char) : Bool :=
  Kind.ofText cs = .text && fitsPlain cs

def hasBlankAtBreak : List Char → Bool
  | c :: d :: rest =>
      (c = ' ' && d = '\n') || (c = '\n' && d = ' ') || hasBlankAtBreak (d :: rest)
  | _ => false

def fitsSingle (cs : List Char) : Bool :=
  cs.all (fun c => c = '\n' || isPlainAscii c) && !hasBlankAtBreak cs

def writeText (indent column : Nat) (cs : List Char) : List Char :=
  if isPlain cs then folded indent ' ' column cs
  else if fitsSingle cs then writeSingle indent column cs
  else writeDouble indent column cs

end ApneaScoring.Yaml
