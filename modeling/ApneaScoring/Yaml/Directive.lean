import ApneaScoring.Yaml.Block
import ApneaScoring.Yaml.Tag

namespace ApneaScoring.Yaml

open Text

structure Directives where
  hasVersion : Bool
  handles : Handles
deriving DecidableEq

namespace Directives

def none : Directives := ⟨false, []⟩

def afterSpaces (cs : List Char) : List Char :=
  cs.dropWhile (· = ' ')

def addVersion (d : Directives) (cs : List Char) : Except Error (Directives × List Char) :=
  let major := cs.takeWhile isDigit
  match cs.dropWhile isDigit with
  | '.' :: rest =>
      let minor := rest.takeWhile isDigit
      let rest := rest.dropWhile isDigit
      if major.isEmpty || minor.isEmpty || !atSpace rest || d.hasVersion ||
          natOfDigits major != 1 then
        .error .malformed
      else .ok ({ d with hasVersion := true }, rest)
  | _ => .error .malformed

def addHandle (d : Directives) (cs : List Char) : Except Error (Directives × List Char) := do
  let '!' :: rest := cs | throw .malformed
  let (handle, rest) ← readHandle rest
  if rest.head? != some ' ' || (d.handles.lookup handle).isSome then throw .malformed
  let (start, rest) ← readTagText (afterSpaces rest)
  if atSpace rest then return ({ d with handles := (handle, start) :: d.handles }, rest)
  else throw .malformed

def add (d : Directives) (cs : List Char) : Except Error (Directives × List Char) :=
  let name := String.ofList (cs.takeWhile isWordChar)
  let rest := cs.dropWhile isWordChar
  if name.isEmpty || !atSpace rest then .error .malformed
  else if name = "YAML" then d.addVersion (afterSpaces rest)
  else if name = "TAG" then d.addHandle (afterSpaces rest)
  else .ok (d, rest.dropWhile (!isBreak ·))

def skipped (startsLine inComment : Bool) : List Char → Bool × List Char
  | [] => (startsLine, [])
  | c :: rest =>
      if isBreak c then skipped true false rest
      else if inComment || c = ' ' then skipped false inComment rest
      else if c = '#' then skipped false true rest
      else (startsLine, c :: rest)

def atStart (cs : List Char) : Bool :=
  cs.head? = some '-' && atMarker cs

def readAfter (d : Directives) (cs : List Char) : Except Error (Directives × List Char) :=
  match skipped true false cs with
  | (true, '%' :: line) => do
      let (d, rest) ← d.add line
      match pastLine? rest with
      | some next => if _h : next.length < cs.length then readAfter d next else throw .malformed
      | .none => throw .malformed
  | (startsLine, rest) =>
      if startsLine && atStart rest then .ok (d, rest) else .error .malformed
termination_by cs.length

def read (cs : List Char) : Except Error (Directives × List Char) :=
  match skipped true false cs with
  | (true, '%' :: _) => readAfter none cs
  | _ => .ok (none, cs)

end Directives

end ApneaScoring.Yaml
