import ApneaScoring.Yaml.Directive
import ApneaScoring.Yaml.Plain

namespace ApneaScoring.Yaml

inductive Token
  | documentStart
  | documentEnd
  | listStart
  | mapStart
  | blockEnd
  | flowListStart
  | flowListEnd
  | flowMapStart
  | flowMapEnd
  | entry
  | key
  | value
  | comma
  | anchor (name : String)
  | reference (name : String)
  | tag (tag : Tag)
  | scalar (isPlain : Bool) (text : String)
  | textEnd
  | fault (error : Error)
deriving DecidableEq

/-- A place in a text, with what is open there. -/
structure Cursor where
  handles : Handles
  rest : List Char
  column : Nat
  /-- The columns of the open block collections, the innermost first. -/
  indents : List Nat
  /-- How many flow collections are open. -/
  depth : Nat
  /-- Whether a key may begin here. -/
  allowsKey : Bool
deriving DecidableEq

namespace Cursor

def inFlow (c : Cursor) : Bool :=
  0 < c.depth

def moveTo (c : Cursor) (rest : List Char) : Cursor :=
  { c with
    rest
    column := columnAfter c.column (c.rest.take (c.rest.length - rest.length)) }

def skipped (inComment endsLine : Bool) (column : Nat) : List Char → List Char × Nat × Bool
  | [] => ([], column, endsLine)
  | c :: rest =>
      if isBreak c then skipped false true 0 rest
      else if inComment || c = ' ' then skipped inComment endsLine (column + 1) rest
      else if c = '#' then skipped true endsLine (column + 1) rest
      else (c :: rest, column, endsLine)

def skip (c : Cursor) : Cursor :=
  let (rest, column, endsLine) := skipped false false c.column c.rest
  { c with rest, column, allowsKey := c.allowsKey || endsLine && !c.inFlow }

def unwind (c : Cursor) : List Token × Cursor :=
  if c.inFlow then ([], c)
  else
    let deeper := c.indents.takeWhile (c.column < ·)
    (deeper.map fun _ => .blockEnd, { c with indents := c.indents.drop deeper.length })

def openBlock (c : Cursor) (start : Token) : List Token × Cursor :=
  if c.inFlow || c.indents.head?.any (c.column ≤ ·) then ([], c)
  else ([start], { c with indents := c.column :: c.indents })

abbrev Step := Except Error (List Token × Cursor)

def marker (c : Cursor) (token : Token) : Step :=
  .ok (c.indents.map (fun _ => .blockEnd) ++ [token],
    { c.moveTo (c.rest.drop 3) with indents := [], allowsKey := false })

/-- Where a key has to stand, a flow collection cannot. -/
def needsKey (c : Cursor) : Bool :=
  c.allowsKey && !c.inFlow && c.indents.head? = some c.column

def openFlow (c : Cursor) (token : Token) (rest : List Char) : Step :=
  if c.needsKey then .error .malformed
  else .ok ([token], { c.moveTo rest with depth := c.depth + 1, allowsKey := true })

def closeFlow (c : Cursor) (token : Token) (rest : List Char) : Step :=
  .ok ([token], { c.moveTo rest with depth := c.depth - 1, allowsKey := false })

def comma (c : Cursor) (rest : List Char) : Step :=
  .ok ([.comma], { c.moveTo rest with allowsKey := true })

def sign (c : Cursor) (start token : Token) (allowsKey : Bool) (rest : List Char) : Step :=
  if !c.inFlow && !c.allowsKey then .error .malformed
  else
    let (opening, next) := c.openBlock start
    .ok (opening ++ [token], { next.moveTo rest with allowsKey })

def keyLimit : Nat := 1024

def afterKey? (c : Cursor) (rest : List Char) : Option (List Char) :=
  match rest.dropWhile isSpace with
  | ':' :: after =>
      let length := c.rest.length - rest.length
      let isShort := c.rest.length ≤ keyLimit + 1 + after.length
      if !(c.rest.take length).any isBreak && isShort && (c.inFlow || atGap after) then
        some after
      else none
  | _ => none

def leastColumn (c : Cursor) : Nat :=
  match c.indents.head? with
  | some column => column + 1
  | none => 0

/-- What may be a key: anchors, tags, and a scalar or an alias after them. -/
structure Head where
  tokens : List Token
  rest : List Char
  /-- Whether the blanks before the rest end a line. -/
  endsLine : Bool

def Head.before (tokens : List Token) (head : Head) : Head :=
  { head with tokens := tokens ++ head.tokens }

def quoted (read : Except Error (List Char × List Char)) : Except Error Head :=
  read.map fun (text, rest) => ⟨[.scalar false (String.ofList text)], rest, false⟩

def content (c : Cursor) (cs : List Char) : Except Error Head :=
  match cs with
  | '*' :: rest => (readName rest).map fun (name, rest) => ⟨[.reference name], rest, false⟩
  | '\'' :: rest => quoted (readSingle rest)
  | '"' :: rest => quoted (readDouble rest)
  | cs =>
      if startsPlain c.inFlow cs then
        let read := readPlain c.inFlow c.leastColumn cs
        .ok ⟨[.scalar true (String.ofList read.text)], read.rest, read.endsLine⟩
      else .ok ⟨[], cs, false⟩

def properties (c : Cursor) : Nat → List Char → Except Error (List Token × List Char)
  | n + 1, '&' :: rest => do
      let (name, rest) ← readName rest
      let (tokens, rest) ← c.properties n (rest.dropWhile isSpace)
      return (.anchor name :: tokens, rest)
  | n + 1, '!' :: rest => do
      let (tag, rest) ← readTag c.handles rest
      let (tokens, rest) ← c.properties n (rest.dropWhile isSpace)
      return (.tag tag :: tokens, rest)
  | _, rest => .ok ([], rest)

def head (c : Cursor) : Except Error Head := do
  let (tokens, rest) ← c.properties 2 c.rest
  let content ← c.content rest
  return content.before tokens

def node (c : Cursor) : Step := do
  let head ← c.head
  match if c.allowsKey then c.afterKey? head.rest else none with
  | some after =>
      let (opening, next) := c.openBlock .mapStart
      return (opening ++ .key :: head.tokens ++ [.value],
        { next.moveTo after with allowsKey := false })
  | none =>
      if c.needsKey then throw .malformed
      return (head.tokens, { c.moveTo head.rest with allowsKey := head.endsLine })

def block (c : Cursor) (isFolded : Bool) (rest : List Char) : Step := do
  let (text, rest) ← readBlock isFolded (max 1 c.leastColumn) rest
  return ([.scalar false (String.ofList text)], { c.moveTo rest with allowsKey := true })

def lexeme (c : Cursor) : Step :=
  if c.column = 0 && atMarker c.rest then
    c.marker (if c.rest.head? = some '-' then .documentStart else .documentEnd)
  else match c.rest with
    | '[' :: rest => c.openFlow .flowListStart rest
    | ']' :: rest => c.closeFlow .flowListEnd rest
    | '\x7b' :: rest => c.openFlow .flowMapStart rest
    | '\x7d' :: rest => c.closeFlow .flowMapEnd rest
    | ',' :: rest => c.comma rest
    | '|' :: rest => if c.inFlow then .error .malformed else c.block false rest
    | '>' :: rest => if c.inFlow then .error .malformed else c.block true rest
    | '-' :: rest => if atGap rest then c.sign .listStart .entry true rest else c.node
    | '?' :: rest =>
        if c.inFlow || atGap rest then c.sign .mapStart .key (!c.inFlow) rest else c.node
    | ':' :: rest =>
        if c.inFlow || atGap rest then c.sign .mapStart .value (!c.inFlow) rest else c.node
    | _ => c.node

def ofText (cs : List Char) : Except Error Cursor := do
  let cs := match cs with
    | '\uFEFF' :: rest => rest
    | cs => cs
  let (directives, rest) ← Directives.read cs
  return ⟨directives.handles, rest, 0, [], 0, true⟩

end Cursor

namespace Token

def scan (c : Cursor) : List Token :=
  let start := c.skip
  if start.rest.isEmpty then start.indents.map (fun _ => .blockEnd) ++ [.textEnd]
  else
    let (closing, start) := start.unwind
    closing ++ match start.lexeme with
      | .error e => [.fault e]
      | .ok (tokens, next) =>
          if next.rest.length < c.rest.length then tokens ++ scan next
          else [.fault .malformed]
termination_by c.rest.length

def ofText (cs : List Char) : List Token :=
  if cs.all isAllowed then
    match Cursor.ofText (unifyBreaks cs) with
    | .ok c => scan c
    | .error e => [.fault e]
  else [.fault .malformed]

end Token

end ApneaScoring.Yaml
