import ApneaScoring.Proofs.Yaml.Plain
import ApneaScoring.Yaml.Document

namespace ApneaScoring.Yaml

def isKeyChar (c : Char) : Bool :=
  isPlainAscii c && c != ' ' && !isSign c && !":?-.".toList.contains c

theorem isKeyChar_iff {c : Char} : isKeyChar c = true ↔
    isPlainAscii c = true ∧ c ≠ ' ' ∧ isSign c = false ∧ c ≠ ':' ∧ c ≠ '?' ∧ c ≠ '-' ∧ c ≠ '.' := by
  simp [isKeyChar, and_assoc]

theorem isGap_of_isKeyChar {c : Char} (h : isKeyChar c = true) : isGap c = false := by
  obtain ⟨hascii, hspace, -⟩ := isKeyChar_iff.mp h
  exact isGap_of_isPlainAscii hascii hspace

theorem ne_of_isKeyChar {c : Char} (h : isKeyChar c = true) : c ≠ '#' ∧ c ≠ '%' := by
  obtain ⟨-, -, hsign, -⟩ := isKeyChar_iff.mp h
  refine ⟨?_, ?_⟩
  · rintro rfl
    cases hsign
  · rintro rfl
    cases hsign

/-- A text that is written plain and read as a key. -/
structure IsKey (key : String) : Prop where
  mem : ∀ c ∈ key.toList, isKeyChar c = true
  ne_nil : key.toList ≠ []
  length_le : key.toList.length ≤ Cursor.keyLimit
  kind : Kind.ofText key.toList = .text

theorem isKey_iff {key : String} : IsKey key ↔ key.toList.all isKeyChar = true ∧
    key.toList ≠ [] ∧ key.toList.length ≤ Cursor.keyLimit ∧ Kind.ofText key.toList = .text := by
  rw [List.all_eq_true]
  exact ⟨fun h => ⟨h.mem, h.ne_nil, h.length_le, h.kind⟩, fun h => ⟨h.1, h.2.1, h.2.2.1, h.2.2.2⟩⟩

instance (key : String) : Decidable (IsKey key) :=
  decidable_of_iff _ isKey_iff.symm

namespace Cursor

/-- A place in text without flow collections and handles. -/
def inBlock (rest : List Char) (column : Nat) (indents : List Nat) (allowsKey : Bool) : Cursor :=
  ⟨[], rest, column, indents, 0, allowsKey⟩

section

variable {rest tail : List Char} {column : Nat} {indents : List Nat} {allowsKey : Bool}

theorem skipped_space (inComment endsLine : Bool) (column : Nat) (cs : List Char) :
    skipped inComment endsLine column (' ' :: cs) = skipped inComment endsLine (column + 1) cs := by
  have hbreak : isBreak ' ' = false := rfl
  simp [skipped, hbreak]

theorem skipped_spaces (endsLine : Bool) (n column : Nat) (cs : List Char) :
    skipped false endsLine column (List.replicate n ' ' ++ cs) =
      skipped false endsLine (column + n) cs := by
  induction n generalizing column with
  | zero => rfl
  | succ n ih =>
      rw [List.replicate_succ, List.cons_append, skipped_space, ih, Nat.add_right_comm,
        Nat.add_assoc]

theorem skipped_stop {c : Char} (h : isGap c = false) (hsign : c ≠ '#') (endsLine : Bool)
    (column : Nat) (cs : List Char) :
    skipped false endsLine column (c :: cs) = (c :: cs, column, endsLine) := by
  have hbreak := isBreak_of_isGap h
  have hspace : c ≠ ' ' := by
    rintro rfl
    cases h
  simp [skipped, hbreak, hspace, hsign]

theorem skipped_endsLine (inComment : Bool) (column : Nat) (cs : List Char) :
    skipped inComment true column cs = ((skipped inComment false column cs).1,
      (skipped inComment false column cs).2.1, true) := by
  induction cs generalizing inComment column with
  | nil => rfl
  | cons c cs ih =>
      simp only [skipped]
      split
      · rw [ih]
      · split
        · exact ih inComment _
        · split
          · exact ih true _
          · rfl

theorem length_skipped_le (inComment endsLine : Bool) (column : Nat) (cs : List Char) :
    (skipped inComment endsLine column cs).1.length ≤ cs.length := by
  induction cs generalizing inComment endsLine column with
  | nil => exact Nat.le_refl 0
  | cons c cs ih =>
      simp only [skipped]
      split
      · exact Nat.le_succ_of_le (ih _ _ _)
      · split
        · exact Nat.le_succ_of_le (ih _ _ _)
        · split
          · exact Nat.le_succ_of_le (ih _ _ _)
          · exact Nat.le_refl _

theorem length_skip_le (c : Cursor) : c.skip.rest.length ≤ c.rest.length :=
  length_skipped_le false false c.column c.rest

theorem skip_line : (inBlock ('\n' :: tail) column indents allowsKey).skip =
    (inBlock tail 0 indents true).skip := by
  have hline : skipped false false column ('\n' :: tail) = skipped false true 0 tail := rfl
  simp only [skip, inBlock, hline, skipped_endsLine false 0 tail]
  simp [inFlow]

theorem skip_word {c : Char} (h : isGap c = false) (hsign : c ≠ '#') (n : Nat) :
    (inBlock (List.replicate n ' ' ++ c :: rest) column indents allowsKey).skip =
      inBlock (c :: rest) (column + n) indents allowsKey := by
  simp only [skip, inBlock, skipped_spaces, skipped_stop h hsign]
  simp

end

end Cursor

open Cursor

/-- Nothing, or a key at a column that is no deeper. -/
inductive Resumes (column : Nat) : List Char → Prop
  | nothing : Resumes column []
  | key {n : Nat} (le : n ≤ column) {c : Char} (isKeyChar : isKeyChar c = true)
      (rest : List Char) : Resumes column (spaces n ++ c :: rest)

theorem Resumes.mono {column deeper : Nat} {tail : List Char} (h : Resumes column tail)
    (hle : column ≤ deeper) : Resumes deeper tail := by
  cases h with
  | nothing => exact .nothing
  | key le hc rest => exact .key (Nat.le_trans le hle) hc rest

/-- From a word on these tokens are scanned, whatever blanks and line ends came before it. -/
def Yields (place : Cursor) (tokens : List Token) : Prop :=
  ∀ c, c.skip = place → Token.scan c = tokens

section

variable {rest : List Char} {column : Nat} {indents : List Nat} {allowsKey : Bool}
  {tokens after : List Token}

theorem yields_skip {c : Cursor} (h : Yields c.skip tokens) : Token.scan c = tokens :=
  h c rfl

theorem yields_end : Yields (inBlock [] column indents allowsKey)
    (indents.map (fun _ => .blockEnd) ++ [.textEnd]) := by
  intro c hc
  rw [Token.scan, hc]
  rfl

theorem scan_of_lexeme {c next : Cursor} {closing : List Token} {start : Cursor}
    (hrest : c.skip.rest.isEmpty = false) (hunwind : c.skip.unwind = (closing, start))
    (hlexeme : start.lexeme = .ok (tokens, next)) (hlength : next.rest.length < c.rest.length) :
    Token.scan c = closing ++ (tokens ++ Token.scan next) := by
  rw [Token.scan]
  simp only [hrest, hunwind, hlexeme, hlength, Bool.false_eq_true, if_false, if_true]

theorem unwind_inBlock : (inBlock rest column indents allowsKey).unwind =
    ((indents.takeWhile (column < ·)).map fun _ => .blockEnd,
      inBlock rest column (indents.drop (indents.takeWhile (column < ·)).length) allowsKey) := rfl

theorem Yields.lexeme {next : Cursor} (hnext : Yields next.skip after) (hrest : rest ≠ [])
    (hindents : ∀ indent ∈ indents.head?, indent ≤ column)
    (hlexeme : (inBlock rest column indents allowsKey).lexeme = .ok (tokens, next))
    (hlength : next.rest.length < rest.length) :
    Yields (inBlock rest column indents allowsKey) (tokens ++ after) := by
  intro c hc
  have hnone : indents.takeWhile (column < ·) = [] := by
    cases indents with
    | nil => rfl
    | cons indent indents =>
        rw [List.takeWhile_cons_of_neg]
        simpa using hindents indent rfl
  have hunwind : c.skip.unwind = ([], inBlock rest column indents allowsKey) := by
    rw [hc, unwind_inBlock, hnone]
    rfl
  have hle : rest.length ≤ c.rest.length := by
    have hskip := c.length_skip_le
    rwa [hc] at hskip
  rw [scan_of_lexeme (by simpa [hc, inBlock] using hrest) hunwind hlexeme (by omega),
    yields_skip hnext]
  rfl

theorem Yields.blockEnd {deeper : Nat} (h : Yields (inBlock rest column indents allowsKey) after)
    (hcolumn : rest = [] ∨ column < deeper) :
    Yields (inBlock rest column (deeper :: indents) allowsKey) (.blockEnd :: after) := by
  intro c hc
  have hsame : ({ c with indents := indents } : Cursor).skip =
      inBlock rest column indents allowsKey :=
    congrArg (fun place : Cursor => { place with indents := indents }) hc
  rw [← h _ hsame, Token.scan, Token.scan, hc, hsame]
  by_cases hrest : rest = []
  · subst hrest
    rfl
  · have hempty (indents : List Nat) :
        (inBlock rest column indents allowsKey).rest.isEmpty = false :=
      List.isEmpty_eq_false_iff.mpr hrest
    have hdeeper : (deeper :: indents).takeWhile (column < ·) =
        deeper :: indents.takeWhile (column < ·) :=
      List.takeWhile_cons_of_pos (by simpa using hcolumn.resolve_left hrest)
    simp only [hempty, Bool.false_eq_true, if_false, unwind_inBlock, hdeeper]
    rfl

end

section

variable {cs : List Char} {column : Nat} {indents : List Nat} {allowsKey : Bool}

theorem lexeme_eq_node (h : startsPlain false cs = true)
    (hmarker : column ≠ 0 ∨ atMarker cs = false) :
    (inBlock cs column indents allowsKey).lexeme = (inBlock cs column indents allowsKey).node := by
  have hnone : (decide ((inBlock cs column indents allowsKey).column = 0) &&
      atMarker (inBlock cs column indents allowsKey).rest) = false := by
    rcases hmarker with hcolumn | hcs <;> simp [inBlock, *]
  unfold lexeme
  rw [hnone, if_neg Bool.false_ne_true]
  simp only [inBlock]
  -- A sign of the format begins no plain text; the last three may, where no gap follows them.
  split
  case h_1 => cases h
  case h_2 => cases h
  case h_3 => cases h
  case h_4 => cases h
  case h_5 => cases h
  case h_6 => cases h
  case h_7 => cases h
  case h_8 rest =>
    have hgap : atGap rest = false := by simpa [startsPlain] using h
    rw [hgap, if_neg Bool.false_ne_true]
  case h_9 rest =>
    have hgap : atGap rest = false := by simpa [startsPlain] using h
    rw [hgap]
    rfl
  case h_10 rest =>
    have hgap : atGap rest = false := by simpa [startsPlain] using h
    rw [hgap]
    rfl
  case h_11 => rfl

theorem properties_eq_nil (h : startsPlain false cs = true) (c : Cursor) :
    c.properties 2 cs = .ok ([], cs) := by
  unfold properties
  split
  · cases h
  · cases h
  · rfl

theorem content_eq_plain (h : startsPlain false cs = true) {c : Cursor} (hflow : c.inFlow = false) :
    c.content cs = .ok ⟨[.scalar true (String.ofList (readPlain false c.leastColumn cs).text)],
      (readPlain false c.leastColumn cs).rest, (readPlain false c.leastColumn cs).endsLine⟩ := by
  unfold content
  split
  · cases h
  · cases h
  · cases h
  · simp only [hflow, h, if_true]

theorem moveTo_append (xs rest : List Char) :
    (inBlock (xs ++ rest) column indents allowsKey).moveTo rest =
      inBlock rest (columnAfter column xs) indents allowsKey := by
  have htake : (xs ++ rest).take ((xs ++ rest).length - rest.length) = xs := by
    rw [List.length_append, Nat.add_sub_cancel]
    exact List.take_left
  simp only [moveTo, inBlock, htake]

theorem columnAfter_append (column : Nat) (xs ys : List Char) :
    columnAfter column (xs ++ ys) = columnAfter (columnAfter column xs) ys :=
  List.foldl_append

theorem columnAfter_word {xs : List Char} (h : ∀ c ∈ xs, isPlainAscii c = true) (column : Nat) :
    columnAfter column xs = column + xs.length := by
  induction xs generalizing column with
  | nil => rfl
  | cons c xs ih =>
      rw [List.forall_mem_cons] at h
      have hbreak : isBreak c = false := by
        by_cases hc : c = ' '
        · subst hc
          rfl
        · exact isBreak_of_isGap (isGap_of_isPlainAscii h.1 hc)
      have hmark : c ≠ '\uFEFF' := by
        rintro rfl
        cases h.1
      have hstep : columnAfter column (c :: xs) = columnAfter (column + 1) xs := by
        simp [columnAfter, hbreak, hmark]
      rw [hstep, ih h.2, List.length_cons]
      omega

theorem head_scalar {rest : List Char} {token : Token} {endsLine : Bool}
    (hproperties : (inBlock cs column indents allowsKey).properties 2 cs = .ok ([], cs))
    (hcontent : (inBlock cs column indents allowsKey).content cs =
      .ok ⟨[token], rest, endsLine⟩) :
    (inBlock cs column indents allowsKey).head = .ok ⟨[token], rest, endsLine⟩ := by
  unfold Cursor.head
  change ((inBlock cs column indents allowsKey).properties 2 cs >>= _) = _
  rw [hproperties]
  change ((inBlock cs column indents allowsKey).content cs >>= _) = _
  rw [hcontent]
  rfl

theorem node_scalar {rest : List Char} {token : Token} {endsLine : Bool}
    (hproperties : (inBlock cs column indents false).properties 2 cs = .ok ([], cs))
    (hcontent : (inBlock cs column indents false).content cs = .ok ⟨[token], rest, endsLine⟩) :
    (inBlock cs column indents false).node =
      .ok ([token],
        { (inBlock cs column indents false).moveTo rest with allowsKey := endsLine }) := by
  unfold node
  rw [head_scalar hproperties hcontent]
  rfl

variable {key : String} {rest : List Char}

theorem IsKey.exists_cons (h : IsKey key) :
    ∃ c cs, key.toList = c :: cs ∧ isKeyChar c = true := by
  obtain ⟨c, cs, hcons⟩ := List.exists_cons_of_ne_nil h.ne_nil
  exact ⟨c, cs, hcons, h.mem c (by simp [hcons])⟩

theorem IsKey.startsPlain (h : IsKey key) (rest : List Char) :
    startsPlain false (key.toList ++ rest) = true := by
  obtain ⟨c, cs, hcons, hc⟩ := h.exists_cons
  obtain ⟨-, -, hsign, hcolon, hquestion, hminus, -⟩ := isKeyChar_iff.mp hc
  simp [Yaml.startsPlain, hcons, hcolon, hquestion, hminus, hsign, isGap_of_isKeyChar hc]

theorem IsKey.atMarker (h : IsKey key) (rest : List Char) :
    atMarker (key.toList ++ rest) = false := by
  obtain ⟨c, cs, hcons, hc⟩ := h.exists_cons
  obtain ⟨-, -, -, -, -, hminus, hpoint⟩ := isKeyChar_iff.mp hc
  rw [hcons, List.cons_append]
  unfold Yaml.atMarker
  split
  · next heq => exact absurd (List.cons.inj heq).1 hminus
  · next heq => exact absurd (List.cons.inj heq).1 hpoint
  · rfl

theorem readPlain_key {xs : List Char} (h : ∀ c ∈ xs, isKeyChar c = true)
    (hrest : atGap rest = true) (least : Nat) :
    readPlain false least (xs ++ ':' :: rest) = ⟨xs, ':' :: rest, false⟩ := by
  induction xs with
  | nil =>
      have hends : wordEnds false (':' :: rest) = true := by simp [wordEnds, hrest]
      exact readPlain_end hends rfl
  | cons c xs ih =>
      rw [List.forall_mem_cons] at h
      have hcolon : c ≠ ':' := (isKeyChar_iff.mp h.1).2.2.2.1
      have hends : wordEnds false (c :: (xs ++ ':' :: rest)) = false := by
        simp [wordEnds, isGap_of_isKeyChar h.1, hcolon]
      rw [List.cons_append, readPlain_char hends, ih h.2]
      rfl

theorem afterKey?_key (h : IsKey key) (hrest : atGap rest = true) :
    (inBlock (key.toList ++ ':' :: rest) column indents allowsKey).afterKey? (':' :: rest) =
      some rest := by
  have hbreak : (key.toList).any isBreak = false := by
    rw [List.any_eq_false]
    intro c hc
    simp [isBreak_of_isGap (isGap_of_isKeyChar (h.mem c hc))]
  have hshort : key.toList.length + (rest.length + 1) ≤ keyLimit + 1 + rest.length := by
    have hle := h.length_le
    omega
  unfold afterKey?
  rw [List.dropWhile_cons_of_neg (by decide)]
  simp [inBlock, hbreak, hshort, hrest]

theorem openBlock_deeper (h : ∀ indent ∈ indents.head?, indent < column) (start : Token) :
    (inBlock cs column indents allowsKey).openBlock start =
      ([start], inBlock cs column (column :: indents) allowsKey) := by
  have hnone : indents.head?.any (column ≤ ·) = false := by
    rw [← Bool.not_eq_true, Option.any_eq_true]
    rintro ⟨indent, hmem, hle⟩
    exact absurd (h indent hmem) (Nat.not_lt.mpr (of_decide_eq_true hle))
  unfold openBlock
  rw [if_neg]
  · rfl
  · change ¬(false || indents.head?.any (column ≤ ·)) = true
    rw [hnone]
    decide

theorem openBlock_open (start : Token) :
    (inBlock cs column (column :: indents) allowsKey).openBlock start =
      ([], inBlock cs column (column :: indents) allowsKey) := by
  unfold openBlock
  rw [if_pos]
  simp [inBlock]

/-- A key and the colon behind it, with the start of the block if none is open there. -/
theorem lexeme_key (h : IsKey key) (hrest : atGap rest = true) {opening : List Token}
    {opened : List Nat} (hopen : (inBlock (key.toList ++ ':' :: rest) column indents true).openBlock
      .mapStart = (opening, inBlock (key.toList ++ ':' :: rest) column opened true)) :
    (inBlock (key.toList ++ ':' :: rest) column indents true).lexeme =
      .ok (opening ++ [.key, .scalar true key, .value],
        inBlock rest (column + key.toList.length + 1) opened false) := by
  have hstarts := h.startsPlain (':' :: rest)
  have hread := readPlain_key h.mem hrest
    (inBlock (key.toList ++ ':' :: rest) column indents true).leastColumn
  have hcontent : (inBlock (key.toList ++ ':' :: rest) column indents true).content
      (key.toList ++ ':' :: rest) = .ok ⟨[.scalar true key], ':' :: rest, false⟩ := by
    rw [content_eq_plain hstarts rfl, hread, String.ofList_toList]
  have hascii : ∀ c ∈ key.toList ++ [':'], isPlainAscii c = true := by
    intro c hc
    rcases List.mem_append.mp hc with hc | hc
    · exact (isKeyChar_iff.mp (h.mem c hc)).1
    · rw [List.mem_singleton.mp hc]
      decide
  have hmove : (inBlock (key.toList ++ ':' :: rest) column opened true).moveTo rest =
      inBlock rest (column + key.toList.length + 1) opened true := by
    have hsplit : key.toList ++ ':' :: rest = (key.toList ++ [':']) ++ rest := by simp
    rw [hsplit, moveTo_append, columnAfter_word hascii, List.length_append, Nat.add_assoc]
    rfl
  rw [lexeme_eq_node hstarts (.inr (h.atMarker _)), node,
    head_scalar (properties_eq_nil hstarts _) hcontent]
  have hafter : (if (inBlock (key.toList ++ ':' :: rest) column indents true).allowsKey then
      (inBlock (key.toList ++ ':' :: rest) column indents true).afterKey? (':' :: rest)
    else none) = some rest := afterKey?_key h hrest
  simp only [bind, Except.bind, hafter, hopen, hmove]
  rw [List.append_assoc]
  rfl

end

end ApneaScoring.Yaml
