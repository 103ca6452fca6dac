namespace ApneaScoring.Yaml

def isAllowed (c : Char) : Bool :=
  let n := c.toNat
  n == 0x9 || n == 0xA || n == 0xD || (0x20 ≤ n && n ≤ 0x7E) || n == 0x85 ||
    (0xA0 ≤ n && n ≤ 0xD7FF) || (0xE000 ≤ n && n ≤ 0xFFFD) || 0x10000 ≤ n

def isBreak (c : Char) : Bool :=
  c = '\n' || c = '\u2028' || c = '\u2029'

def isGap (c : Char) : Bool :=
  c = ' ' || c = '\t' || isBreak c

def unifyBreaks : List Char → List Char
  | '\r' :: '\n' :: rest => '\n' :: unifyBreaks rest
  | c :: rest => (if c = '\r' || c = '\u0085' then '\n' else c) :: unifyBreaks rest
  | [] => []

def atGap : List Char → Bool
  | [] => true
  | c :: _ => isGap c

def atMarker : List Char → Bool
  | '-' :: '-' :: '-' :: rest => atGap rest
  | '.' :: '.' :: '.' :: rest => atGap rest
  | _ => false

/-- A byte order mark has no width. -/
def columnAfter (column : Nat) (text : List Char) : Nat :=
  text.foldl (fun n c => if isBreak c then 0 else if c = '\uFEFF' then n else n + 1) column

/-- The line breaks of empty lines, the column where text goes on, and that text.
A document marker ends the lines wherever they are. -/
def emptyLines (isBlank : Char → Bool) : Nat → List Char → List Char × Nat × List Char
  | column, [] => ([], column, [])
  | column, c :: rest =>
      if column = 0 && atMarker (c :: rest) then ([], 0, c :: rest)
      else if isBlank c then emptyLines isBlank (column + 1) rest
      else if isBreak c then
        let (breaks, after) := emptyLines isBlank 0 rest
        (c :: breaks, after)
      else ([], column, c :: rest)

/-- What a line break and the empty lines after it stand for in a text: one break
alone is a space, and of more the first is dropped. -/
def foldedBreaks (first : Char) (breaks : List Char) : List Char :=
  if first != '\n' then first :: breaks
  else if breaks.isEmpty then [' ']
  else breaks

theorem length_emptyLines (isBlank : Char → Bool) (column : Nat) (cs : List Char) :
    (emptyLines isBlank column cs).2.2.length ≤ cs.length := by
  fun_induction emptyLines isBlank column cs with
  | case1 => exact Nat.le_refl 0
  | case2 => exact Nat.le_refl _
  | case3 column c rest _ _ ih => exact Nat.le_succ_of_le ih
  | case4 column c rest _ _ _ breaks after h ih =>
      rw [h] at ih
      exact Nat.le_succ_of_le ih
  | case5 => exact Nat.le_refl _

end ApneaScoring.Yaml
