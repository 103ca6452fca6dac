import ApneaScoring.Text.Quoted
import ApneaScoring.Yaml.Character
import ApneaScoring.Yaml.Error
import ApneaScoring.Yaml.Scalar

namespace ApneaScoring.Yaml

def width : Nat := 80

def newLine (indent : Nat) : List Char :=
  '\n' :: List.replicate indent ' '

def isAlone (previous : Char) (rest : List Char) : Bool :=
  previous != ' ' && match rest with
    | c :: _ => c != ' '
    | [] => false

/-- Text from a column on: line breaks are written with one break more, and a single
blank past the width becomes a line break. -/
def folded (indent : Nat) : Char → Nat → List Char → List Char
  | _, _, [] => []
  | previous, column, c :: rest =>
      if c = '\n' then
        let breaks := if previous = '\n' then ['\n'] else ['\n', '\n']
        if rest.head? = some '\n' then breaks ++ folded indent c 0 rest
        else breaks ++ List.replicate indent ' ' ++ folded indent c indent rest
      else if c = ' ' && width < column && isAlone previous rest then
        newLine indent ++ folded indent c indent rest
      else c :: folded indent c (column + 1) rest

def doubledQuotes (cs : List Char) : List Char :=
  cs.flatMap fun c => if c = '\'' then ['\'', '\''] else [c]

def writeSingle (indent column : Nat) (cs : List Char) : List Char :=
  '\'' :: folded indent ' ' (column + 1) (doubledQuotes cs) ++ ['\'']

def escapes : List (Char × Char) := [
  ('0', '\x00'), ('a', '\x07'), ('b', '\x08'), ('t', '\t'), ('n', '\n'), ('v', '\x0b'),
  ('f', '\x0c'), ('r', '\r'), ('e', '\x1b'), ('"', '"'), ('\\', '\\'), ('N', '\u0085'),
  ('_', '\u00a0'), ('L', '\u2028'), ('P', '\u2029')]

def otherEscapes : List (Char × Char) := [('\t', '\t'), (' ', ' '), ('/', '/')]

def isPlainAscii (c : Char) : Bool :=
  ' ' ≤ c && c ≤ '~'

def needsEscape (c : Char) : Bool :=
  c = '"' || c = '\\' || !isPlainAscii c

def upperHex (width n : Nat) : List Char :=
  (Text.hexDigits width n).map Char.toUpper

def escapeText (c : Char) : List Char :=
  let n := c.toNat
  match escapes.find? fun entry => entry.2 = c with
  | some (letter, _) => ['\\', letter]
  | none =>
      if n < 0x100 then '\\' :: 'x' :: upperHex 2 n
      else if n < 0x10000 then '\\' :: 'u' :: upperHex 4 n
      else '\\' :: 'U' :: upperHex 8 n

/-- A line break that is not part of the text; a blank that follows is escaped. -/
def escapedBreak (indent : Nat) (rest : List Char) : List Char :=
  '\\' :: newLine indent ++ if rest.head? = some ' ' then ['\\'] else []

def breakWidth (indent : Nat) (rest : List Char) : Nat :=
  if rest.head? = some ' ' then indent + 1 else indent

/-- Text from a column on with escapes. Lines may end at a blank, or on either side
of an escape, but not at the first or before the last character. -/
def escaped (indent : Nat) (isFirst afterEscape : Bool) (column : Nat) :
    List Char → List Char
  | [] => []
  | c :: rest =>
      let isInner := !isFirst && !rest.isEmpty
      if needsEscape c then
        let text := escapeText c
        let after := column + text.length
        if isInner && width < after - 1 then
          text ++ escapedBreak indent rest ++
            escaped indent false true (breakWidth indent rest) rest
        else text ++ escaped indent false true after rest
      else if isInner && (c = ' ' || afterEscape) && width < column then
        escapedBreak indent (c :: rest) ++
          c :: escaped indent false false (breakWidth indent (c :: rest) + 1) rest
      else c :: escaped indent false false (column + 1) rest

def writeDouble (indent column : Nat) (cs : List Char) : List Char :=
  '"' :: escaped indent true false (column + 1) cs ++ ['"']

def isBlank (c : Char) : Bool :=
  c = ' ' || c = '\t'

/-- The line breaks after a line end in quotes, and the rest. A document marker ends
the text as if nothing followed. -/
def quotedLines (cs : List Char) : List Char × List Char :=
  let (breaks, column, rest) := emptyLines isBlank 0 cs
  (breaks, if column = 0 && atMarker rest then [] else rest)

def quotedGap (cs : List Char) : List Char × List Char :=
  match cs.dropWhile isBlank with
  | c :: rest =>
      if isBreak c then
        let (breaks, rest) := quotedLines rest
        (foldedBreaks c breaks, rest)
      else (cs.takeWhile isBlank, c :: rest)
  | [] => (cs.takeWhile isBlank, [])

def digitCount? : Char → Option Nat
  | 'x' => some 2
  | 'u' => some 4
  | 'U' => some 8
  | _ => none

def ofCode (digits : List Char) : Except Error Char :=
  let n := (Number.numeralIn? 16 digits).getD 0
  if 0x7FFFFFFF < n then .error .codeTooLarge
  else if 0x10FFFF < n then .error .codePoint
  else if Char.ofNat n = '\x00' && n != 0 then .error .malformed
  else .ok (Char.ofNat n)

def readEscape : List Char → Except Error (List Char × List Char)
  | [] => .error .malformed
  | c :: rest =>
      match (escapes ++ otherEscapes).lookup c with
      | some e => .ok ([e], rest)
      | none => match digitCount? c with
          | some n =>
              let digits := rest.take n
              if digits.length = n && digits.all isHexDigit then
                (ofCode digits).map fun e => ([e], rest.drop n)
              else .error .malformed
          | none => if isBreak c then .ok (quotedLines rest) else .error .malformed

theorem length_quotedLines (cs : List Char) : (quotedLines cs).2.length ≤ cs.length := by
  have h := length_emptyLines isBlank 0 cs
  simp only [quotedLines]
  split
  · exact Nat.zero_le _
  · exact h

theorem length_dropWhile_le (p : Char → Bool) (cs : List Char) :
    (cs.dropWhile p).length ≤ cs.length :=
  (List.dropWhile_sublist p).length_le

theorem length_quotedGap {c : Char} (h : isGap c = true) (rest : List Char) :
    (quotedGap (c :: rest)).2.length < (c :: rest).length := by
  unfold quotedGap
  split
  · next d after heq =>
    have hle := length_dropWhile_le isBlank (c :: rest)
    rw [heq] at hle
    simp only [List.length_cons] at hle
    split
    · have := length_quotedLines after
      simp only [List.length_cons]
      omega
    · next hd =>
      by_cases hb : isBlank c = true
      · have hle := length_dropWhile_le isBlank rest
        rw [List.dropWhile_cons, if_pos hb] at heq
        rw [heq] at hle
        simp only [List.length_cons] at hle ⊢
        omega
      · rw [List.dropWhile_cons, if_neg hb] at heq
        obtain ⟨rfl, rfl⟩ := List.cons.inj heq
        simp_all [isGap, isBlank]
  · exact Nat.succ_pos _

theorem length_readEscape {cs text rest : List Char} (h : readEscape cs = .ok (text, rest)) :
    rest.length ≤ cs.length := by
  cases cs with
  | nil => simp [readEscape] at h
  | cons c cs =>
    simp only [readEscape] at h
    split at h
    · simp_all
    · split at h
      · split at h
        · next n _ _ =>
          simp only [Except.map] at h
          split at h
          · cases h
          · cases h
            simp
            omega
        · cases h
      · split at h
        · have := length_quotedLines cs
          simp_all
          omega
        · cases h

def prepend (text : List Char) (read : List Char × List Char) : List Char × List Char :=
  (text ++ read.1, read.2)

def readSingle (cs : List Char) : Except Error (List Char × List Char) :=
  match cs with
  | [] => .error .malformed
  | '\'' :: '\'' :: rest => (readSingle rest).map (prepend ['\''])
  | '\'' :: rest => .ok ([], rest)
  | c :: rest =>
      if h : isGap c = true then
        have := Nat.le_of_lt_succ (length_quotedGap h rest)
        (readSingle (quotedGap (c :: rest)).2).map (prepend (quotedGap (c :: rest)).1)
      else (readSingle rest).map (prepend [c])
termination_by cs.length
decreasing_by all_goals simp only [List.length_cons]; omega

def readDouble (cs : List Char) : Except Error (List Char × List Char) :=
  match cs with
  | [] => .error .malformed
  | '"' :: rest => .ok ([], rest)
  | '\\' :: rest =>
      match h : readEscape rest with
      | .error e => .error e
      | .ok (text, after) =>
          have := length_readEscape h
          (readDouble after).map (prepend text)
  | c :: rest =>
      if h : isGap c = true then
        have := Nat.le_of_lt_succ (length_quotedGap h rest)
        (readDouble (quotedGap (c :: rest)).2).map (prepend (quotedGap (c :: rest)).1)
      else (readDouble rest).map (prepend [c])
termination_by cs.length
decreasing_by all_goals simp only [List.length_cons]; omega

end ApneaScoring.Yaml
