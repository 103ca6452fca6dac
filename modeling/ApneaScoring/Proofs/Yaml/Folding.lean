import ApneaScoring.Yaml.Plain

namespace ApneaScoring.Yaml

section

variable {isBlank : Char → Bool}

theorem emptyLines_spaces (h : isBlank ' ' = true) (n column : Nat) (cs : List Char) :
    emptyLines isBlank column (List.replicate n ' ' ++ cs) =
      emptyLines isBlank (column + n) cs := by
  induction n generalizing column with
  | zero => rfl
  | succ n ih =>
      have hmarker : atMarker (' ' :: (List.replicate n ' ' ++ cs)) = false := rfl
      rw [List.replicate_succ, List.cons_append, emptyLines]
      simp only [hmarker, h, Bool.and_false, Bool.false_eq_true, if_false, if_true]
      rw [ih, Nat.add_right_comm, Nat.add_assoc]

theorem emptyLines_breaks (h : isBlank '\n' = false) (k : Nat) (cs : List Char) :
    emptyLines isBlank 0 (List.replicate k '\n' ++ cs) =
      (List.replicate k '\n' ++ (emptyLines isBlank 0 cs).1, (emptyLines isBlank 0 cs).2) := by
  induction k with
  | zero => rfl
  | succ k ih =>
      have hmarker : atMarker ('\n' :: (List.replicate k '\n' ++ cs)) = false := rfl
      have hbreak : isBreak '\n' = true := rfl
      rw [List.replicate_succ, List.cons_append, emptyLines, ih]
      simp only [hmarker, h, hbreak, Bool.and_false, Bool.false_eq_true, if_false, if_true]
      rfl

theorem emptyLines_stop {column : Nat} {c : Char} {rest : List Char}
    (hmarker : column ≠ 0 ∨ atMarker (c :: rest) = false) (hblank : isBlank c = false)
    (hbreak : isBreak c = false) :
    emptyLines isBlank column (c :: rest) = ([], column, c :: rest) := by
  have hstays : (decide (column = 0) && atMarker (c :: rest)) = false := by
    rcases hmarker with h | h <;> simp [h]
  rw [emptyLines]
  simp only [hstays, hblank, hbreak, Bool.false_eq_true, if_false]

theorem emptyLines_lines (isBlank : Char → Bool) (hspace : isBlank ' ' = true)
    (hend : isBlank '\n' = false) (k : Nat) {indent : Nat} (hindent : 0 < indent) {c : Char}
    (hblank : isBlank c = false) (hbreak : isBreak c = false) (rest : List Char) :
    emptyLines isBlank 0 (List.replicate k '\n' ++ (List.replicate indent ' ' ++ c :: rest)) =
      (List.replicate k '\n', indent, c :: rest) := by
  have hcolumn : 0 + indent ≠ 0 := by omega
  rw [emptyLines_breaks hend, emptyLines_spaces hspace,
    emptyLines_stop (.inl hcolumn) hblank hbreak, List.append_nil, Nat.zero_add]

end

def gapText (k : Nat) : List Char :=
  if k = 0 then [' '] else List.replicate k '\n'

theorem foldedBreaks_replicate (k : Nat) :
    foldedBreaks '\n' (List.replicate k '\n') = gapText k := by
  cases k <;> simp [foldedBreaks, gapText]

theorem isBlank_of_isGap {c : Char} (h : isGap c = false) : isBlank c = false := by
  simp_all [isGap, isBlank]

theorem isBreak_of_isGap {c : Char} (h : isGap c = false) : isBreak c = false := by
  simp_all [isGap]

theorem quotedGap_lines (k : Nat) {indent : Nat} (hindent : 0 < indent) {c : Char}
    (h : isGap c = false) (rest : List Char) :
    quotedGap ('\n' :: (List.replicate k '\n' ++ (List.replicate indent ' ' ++ c :: rest))) =
      (gapText k, c :: rest) := by
  have hlines := emptyLines_lines isBlank rfl rfl k hindent (isBlank_of_isGap h)
    (isBreak_of_isGap h) rest
  have hcolumn : (decide (indent = 0) && atMarker (c :: rest)) = false := by
    simp [Nat.pos_iff_ne_zero.mp hindent]
  have hquoted : quotedLines (List.replicate k '\n' ++ (List.replicate indent ' ' ++ c :: rest)) =
      (List.replicate k '\n', c :: rest) := by
    simp only [quotedLines, hlines, hcolumn, Bool.false_eq_true, if_false]
  have hblank : isBlank '\n' = false := rfl
  have hbreak : isBreak '\n' = true := rfl
  rw [quotedGap, List.dropWhile_cons_of_neg (by simp [hblank])]
  simp only [hbreak, if_true, hquoted, foldedBreaks_replicate]

def KeepsBlanks (cs : List Char) : Prop :=
  ∀ c ∈ (cs.dropWhile isBlank).head?, isBreak c = false

theorem KeepsBlanks.space {cs : List Char} (h : KeepsBlanks cs) : KeepsBlanks (' ' :: cs) := by
  have hblank : isBlank ' ' = true := rfl
  unfold KeepsBlanks
  rwa [List.dropWhile_cons_of_pos hblank]

theorem KeepsBlanks.of_isGap {c : Char} (h : isGap c = false) (rest : List Char) :
    KeepsBlanks (c :: rest) := by
  unfold KeepsBlanks
  rw [List.dropWhile_cons_of_neg (by simp [isBlank_of_isGap h])]
  rintro d ⟨⟩
  exact isBreak_of_isGap h

theorem KeepsBlanks.quotedGap {cs : List Char} (h : KeepsBlanks cs) :
    quotedGap cs = (cs.takeWhile isBlank, cs.dropWhile isBlank) := by
  rw [Yaml.quotedGap]
  cases hdrop : cs.dropWhile isBlank with
  | nil => rfl
  | cons c rest =>
      have hbreak : isBreak c = false := h c (by rw [hdrop]; rfl)
      simp only [hbreak, Bool.false_eq_true, if_false]

/-- A reader of quoted text takes gaps as a whole. -/
def TakesGaps (read : List Char → Except Error (List Char × List Char)) : Prop :=
  ∀ c rest, isGap c = true →
    read (c :: rest) = (read (quotedGap (c :: rest)).2).map (prepend (quotedGap (c :: rest)).1)

section

variable {read : List Char → Except Error (List Char × List Char)}

theorem map_prepend_prepend (xs ys : List Char) (e : Except Error (List Char × List Char)) :
    (e.map (prepend ys)).map (prepend xs) = e.map (prepend (xs ++ ys)) := by
  cases e with
  | error e => rfl
  | ok v => simp [Except.map, prepend]

theorem TakesGaps.space (hread : TakesGaps read) {cs : List Char} (h : KeepsBlanks cs) :
    read (' ' :: cs) = (read cs).map (prepend [' ']) := by
  have hblank : isBlank ' ' = true := rfl
  rw [hread ' ' cs rfl, h.space.quotedGap, List.takeWhile_cons_of_pos hblank,
    List.dropWhile_cons_of_pos hblank]
  cases cs with
  | nil => rfl
  | cons c rest =>
      by_cases hc : isBlank c = true
      · have hgap : isGap c = true := by simp_all [isGap, isBlank]
        rw [hread c rest hgap, h.quotedGap, map_prepend_prepend]
        rfl
      · rw [List.takeWhile_cons_of_neg hc, List.dropWhile_cons_of_neg hc]

theorem TakesGaps.lines (hread : TakesGaps read) (k : Nat) {indent : Nat} (hindent : 0 < indent)
    {c : Char} (h : isGap c = false) (rest : List Char) :
    read ('\n' :: (List.replicate k '\n' ++ (List.replicate indent ' ' ++ c :: rest))) =
      (read (c :: rest)).map (prepend (gapText k)) := by
  rw [hread '\n' _ rfl, quotedGap_lines k hindent h]

end

theorem takesGaps_readSingle : TakesGaps readSingle := by
  intro c rest h
  have hquote : c ≠ '\'' := by
    rintro rfl
    cases h
  rw [readSingle.eq_def]
  split
  · next heq => cases heq
  · next heq => exact absurd (List.cons.inj heq).1 hquote
  · next heq => exact absurd (List.cons.inj heq).1 hquote
  · next heq =>
      obtain ⟨rfl, rfl⟩ := List.cons.inj heq
      rw [dif_pos h]

theorem readSingle_char {c : Char} (hgap : isGap c = false) (hquote : c ≠ '\'') (rest : List Char) :
    readSingle (c :: rest) = (readSingle rest).map (prepend [c]) := by
  rw [readSingle.eq_def]
  split
  · next heq => cases heq
  · next heq => exact absurd (List.cons.inj heq).1 hquote
  · next heq => exact absurd (List.cons.inj heq).1 hquote
  · next heq =>
      obtain ⟨rfl, rfl⟩ := List.cons.inj heq
      rw [dif_neg (by simp [hgap])]

theorem readSingle_quotes (rest : List Char) :
    readSingle ('\'' :: '\'' :: rest) = (readSingle rest).map (prepend ['\'']) := by
  rw [readSingle]

theorem readSingle_end {rest : List Char} (h : rest.head? ≠ some '\'') :
    readSingle ('\'' :: rest) = .ok ([], rest) := by
  rw [readSingle]
  rintro after rfl
  exact h rfl

section

variable {indent column : Nat} {previous c : Char} {cs rest : List Char}

theorem folded_char (hspace : c ≠ ' ') (hbreak : c ≠ '\n') :
    folded indent previous column (c :: rest) = c :: folded indent c (column + 1) rest := by
  simp [folded, hspace, hbreak]

theorem folded_space : folded indent previous column (' ' :: rest) =
    if width < column && isAlone previous rest then newLine indent ++ folded indent ' ' indent rest
    else ' ' :: folded indent ' ' (column + 1) rest := by
  simp [folded]

theorem folded_break_break :
    folded indent previous column ('\n' :: '\n' :: rest) =
      (if previous = '\n' then ['\n'] else ['\n', '\n']) ++
        folded indent '\n' 0 ('\n' :: rest) := by
  rw [folded]
  simp

theorem folded_breaks (indent column : Nat) (h : rest.head? ≠ some '\n') (k : Nat) :
    folded indent '\n' column (List.replicate (k + 1) '\n' ++ rest) =
      List.replicate (k + 1) '\n' ++
        (List.replicate indent ' ' ++ folded indent '\n' indent rest) := by
  induction k generalizing column with
  | zero => simp [folded, h]
  | succ k ih =>
      have hnext := ih 0
      simp only [List.replicate_succ, List.cons_append] at hnext ⊢
      rw [folded_break_break, if_pos rfl, hnext]
      rfl

theorem folded_run (hprevious : previous ≠ '\n') (h : rest.head? ≠ some '\n') (k : Nat) :
    folded indent previous column (List.replicate (k + 1) '\n' ++ rest) =
      '\n' :: (List.replicate (k + 1) '\n' ++
        (List.replicate indent ' ' ++ folded indent '\n' indent rest)) := by
  cases k with
  | zero => simp [folded, hprevious, h]
  | succ k =>
      have hnext := folded_breaks indent 0 h k
      simp only [List.replicate_succ, List.cons_append] at hnext ⊢
      rw [folded_break_break, if_neg hprevious, hnext]
      rfl

theorem isAlone_space : isAlone ' ' cs = false := rfl

theorem keepsBlanks_folded (h : ∀ c ∈ (cs.dropWhile isSpace).head?, isGap c = false)
    (hc : isGap c = false) :
    KeepsBlanks (folded indent ' ' column cs ++ c :: rest) := by
  induction cs generalizing column with
  | nil => exact .of_isGap hc _
  | cons d cs ih =>
      by_cases hd : d = ' '
      · subst hd
        rw [List.dropWhile_cons_of_pos rfl] at h
        rw [folded_space, isAlone_space, Bool.and_false, if_neg Bool.false_ne_true]
        exact (ih h).space
      · rw [List.dropWhile_cons_of_neg (by simpa [isSpace] using hd)] at h
        have hgap : isGap d = false := h d rfl
        have hbreak : d ≠ '\n' := by
          rintro rfl
          cases hgap
        rw [folded_char hd hbreak]
        exact .of_isGap hgap _

end

theorem isGap_of_isPlainAscii {c : Char} (h : isPlainAscii c = true) (hspace : c ≠ ' ') :
    isGap c = false := by
  rw [← Bool.not_eq_true]
  intro hgap
  simp only [isGap, isBreak, Bool.or_eq_true, decide_eq_true_eq] at hgap
  rcases hgap with (rfl | rfl) | (rfl | rfl) | rfl
  · exact hspace rfl
  all_goals cases h

/-- Plain characters and line ends, with no blank beside a line end. -/
structure FitsSingle (cs : List Char) : Prop where
  mem : ∀ c ∈ cs, c = '\n' ∨ isPlainAscii c = true
  apart : hasBlankAtBreak cs = false

theorem fitsSingle_iff (cs : List Char) : fitsSingle cs = true ↔ FitsSingle cs := by
  constructor
  · intro h
    simp only [fitsSingle, Bool.and_eq_true, List.all_eq_true, Bool.or_eq_true,
      decide_eq_true_eq, Bool.not_eq_true'] at h
    exact ⟨h.1, h.2⟩
  · intro h
    simp only [fitsSingle, Bool.and_eq_true, List.all_eq_true, Bool.or_eq_true,
      decide_eq_true_eq, Bool.not_eq_true']
    exact ⟨h.mem, h.apart⟩

namespace FitsSingle

variable {c d : Char} {cs rest : List Char}

theorem tail (h : FitsSingle (c :: rest)) : FitsSingle rest := by
  refine ⟨fun d hd => h.mem d (List.mem_cons_of_mem _ hd), ?_⟩
  cases rest with
  | nil => rfl
  | cons d rest =>
      have hapart := h.apart
      simp only [hasBlankAtBreak, Bool.or_eq_false_iff] at hapart
      exact hapart.2

theorem isGap_head (h : FitsSingle (c :: rest)) (hspace : c ≠ ' ') (hbreak : c ≠ '\n') :
    isGap c = false :=
  isGap_of_isPlainAscii ((h.mem c List.mem_cons_self).resolve_left hbreak) hspace

theorem of_append {xs : List Char} (h : FitsSingle (xs ++ cs)) : FitsSingle cs := by
  induction xs with
  | nil => exact h
  | cons c xs ih => exact ih h.tail

theorem of_run {k : Nat} (h : FitsSingle (List.replicate (k + 1) '\n' ++ cs)) :
    FitsSingle ('\n' :: cs) := by
  rw [List.replicate_succ', List.append_assoc] at h
  exact h.of_append

theorem after_space (h : FitsSingle (' ' :: cs)) :
    ∀ c ∈ (cs.dropWhile isSpace).head?, isGap c = false := by
  induction cs with
  | nil => simp
  | cons d cs ih =>
      by_cases hd : d = ' '
      · subst hd
        rw [List.dropWhile_cons_of_pos rfl]
        exact ih h.tail
      · rw [List.dropWhile_cons_of_neg (by simpa [isSpace] using hd)]
        rintro c ⟨⟩
        apply h.tail.isGap_head hd
        rintro rfl
        cases h.apart

theorem after_lone_space (h : FitsSingle (' ' :: cs)) (halone : isAlone d cs = true) :
    ∀ c ∈ cs.head?, isGap c = false := by
  cases cs with
  | nil => simp
  | cons c cs =>
      have hspace : c ≠ ' ' := by
        rintro rfl
        simp [isAlone] at halone
      have hafter := h.after_space
      rwa [List.dropWhile_cons_of_neg (by simpa [isSpace] using hspace)] at hafter

theorem after_break (h : FitsSingle ('\n' :: cs)) (hcs : cs.head? ≠ some '\n') :
    ∀ c ∈ cs.head?, isGap c = false := by
  cases cs with
  | nil => simp
  | cons c cs =>
      rintro d ⟨⟩
      apply h.tail.isGap_head
      · rintro rfl
        cases h.apart
      · rintro rfl
        exact hcs rfl

end FitsSingle

/-- A law of texts goes over their characters, line ends in a row being taken together. -/
theorem runs_induction {P : List Char → Prop} (nil : P [])
    (char : ∀ c cs, c ≠ '\n' → P cs → P (c :: cs))
    (run : ∀ k cs, cs.head? ≠ some '\n' → P cs → P (List.replicate (k + 1) '\n' ++ cs))
    (cs : List Char) : P cs := by
  -- What is behind the run is the text that the induction is on.
  have hruns : ∀ k, P (List.replicate k '\n' ++ cs) := by
    induction cs with
    | nil =>
        intro k
        cases k with
        | zero => exact nil
        | succ k => exact run k [] (by simp) nil
    | cons c cs ih =>
        intro k
        by_cases hc : c = '\n'
        · subst hc
          have hnext := ih (k + 1)
          rwa [List.replicate_succ', List.append_assoc] at hnext
        · have hself : P (c :: cs) := char c cs hc (ih 0)
          cases k with
          | zero => exact hself
          | succ k => exact run k (c :: cs) (by simpa using hc) hself
  exact hruns 0

theorem doubledQuotes_cons {c : Char} (h : c ≠ '\'') (cs : List Char) :
    doubledQuotes (c :: cs) = c :: doubledQuotes cs := by
  simp [doubledQuotes, h]

theorem doubledQuotes_quote (cs : List Char) :
    doubledQuotes ('\'' :: cs) = '\'' :: '\'' :: doubledQuotes cs := by
  simp [doubledQuotes]

theorem doubledQuotes_replicate (k : Nat) (cs : List Char) :
    doubledQuotes (List.replicate k '\n' ++ cs) = List.replicate k '\n' ++ doubledQuotes cs := by
  induction k with
  | zero => rfl
  | succ k ih => rw [List.replicate_succ, List.cons_append, doubledQuotes_cons (by decide), ih]; rfl

theorem head?_doubledQuotes (cs : List Char) : (doubledQuotes cs).head? = cs.head? := by
  cases cs with
  | nil => rfl
  | cons c cs =>
      by_cases hc : c = '\''
      · subst hc
        rw [doubledQuotes_quote]
        rfl
      · rw [doubledQuotes_cons hc]
        rfl

theorem isAlone_eq (previous : Char) (cs : List Char) :
    isAlone previous cs = (previous != ' ' && cs.head?.any (· != ' ')) := by
  cases cs <;> rfl

theorem isAlone_doubledQuotes (previous : Char) (cs : List Char) :
    isAlone previous (doubledQuotes cs) = isAlone previous cs := by
  rw [isAlone_eq, isAlone_eq, head?_doubledQuotes]

theorem dropWhile_doubledQuotes (cs : List Char) :
    (doubledQuotes cs).dropWhile isSpace = doubledQuotes (cs.dropWhile isSpace) := by
  induction cs with
  | nil => rfl
  | cons c cs ih =>
      by_cases hc : c = ' '
      · subst hc
        rw [doubledQuotes_cons (by decide), List.dropWhile_cons_of_pos rfl,
          List.dropWhile_cons_of_pos rfl, ih]
      · have hspace : ¬isSpace c = true := by simpa [isSpace] using hc
        rw [List.dropWhile_cons_of_neg hspace]
        by_cases hquote : c = '\''
        · subst hquote
          rw [doubledQuotes_quote, List.dropWhile_cons_of_neg hspace]
        · rw [doubledQuotes_cons hquote, List.dropWhile_cons_of_neg hspace]

theorem folded_of_isGap {indent column : Nat} {previous c : Char} (h : isGap c = false)
    (cs : List Char) :
    folded indent previous column (c :: cs) = c :: folded indent c (column + 1) cs := by
  apply folded_char
  · rintro rfl
    cases h
  · rintro rfl
    cases h

theorem TakesGaps.folded {read : List Char → Except Error (List Char × List Char)}
    (hread : TakesGaps read) (k : Nat) {indent column : Nat} (hindent : 0 < indent)
    {previous q : Char} {cs rest : List Char} (hcs : ∀ c ∈ cs.head?, isGap c = false)
    (hq : isGap q = false) :
    read ('\n' :: (List.replicate k '\n' ++
        (List.replicate indent ' ' ++ (folded indent previous column cs ++ q :: rest)))) =
      (read (folded indent previous column cs ++ q :: rest)).map (prepend (gapText k)) := by
  cases cs with
  | nil => exact hread.lines k hindent hq rest
  | cons c cs =>
      have hc : isGap c = false := hcs c rfl
      rw [folded_of_isGap hc]
      exact hread.lines k hindent hc _

section

variable {indent : Nat} {tail : List Char}

theorem readSingle_folded_space (hindent : 0 < indent) {cs : List Char}
    (h : FitsSingle (' ' :: cs)) (previous : Char) (column : Nat)
    (hrest : ∀ column, readSingle (folded indent ' ' column (doubledQuotes cs) ++ '\'' :: tail) =
      .ok (cs, tail)) :
    readSingle (folded indent previous column (doubledQuotes (' ' :: cs)) ++ '\'' :: tail) =
      .ok (' ' :: cs, tail) := by
  have hafter := h.after_space
  rw [doubledQuotes_cons (by decide), folded_space]
  split
  · next hfold =>
      rw [Bool.and_eq_true, isAlone_doubledQuotes] at hfold
      have hhead := h.after_lone_space hfold.2
      rw [← head?_doubledQuotes] at hhead
      rw [List.append_assoc, newLine, List.cons_append]
      refine (takesGaps_readSingle.folded 0 hindent hhead rfl).trans ?_
      rw [hrest]
      rfl
  · have hkeeps : KeepsBlanks
        (folded indent ' ' (column + 1) (doubledQuotes cs) ++ '\'' :: tail) := by
      apply keepsBlanks_folded _ rfl
      rwa [dropWhile_doubledQuotes, head?_doubledQuotes]
    rw [List.cons_append, takesGaps_readSingle.space hkeeps, hrest]
    rfl

theorem readSingle_folded_run (hindent : 0 < indent) {k : Nat} {cs : List Char}
    (h : FitsSingle (List.replicate (k + 1) '\n' ++ cs)) {previous : Char}
    (hprevious : previous ≠ '\n') (column : Nat) (hcs : cs.head? ≠ some '\n')
    (hrest : ∀ column, readSingle (folded indent '\n' column (doubledQuotes cs) ++ '\'' :: tail) =
      .ok (cs, tail)) :
    readSingle (folded indent previous column
        (doubledQuotes (List.replicate (k + 1) '\n' ++ cs)) ++ '\'' :: tail) =
      .ok (List.replicate (k + 1) '\n' ++ cs, tail) := by
  have hhead := h.of_run.after_break hcs
  rw [← head?_doubledQuotes] at hhead hcs
  rw [doubledQuotes_replicate, folded_run hprevious hcs, List.cons_append, List.append_assoc,
    List.append_assoc]
  refine (takesGaps_readSingle.folded (k + 1) hindent hhead rfl).trans ?_
  rw [hrest]
  rfl

/-- Text in single quotes is read as it is, wherever its lines were folded. -/
theorem readSingle_folded (hindent : 0 < indent) (htail : tail.head? ≠ some '\'') {cs : List Char}
    (h : FitsSingle cs) (previous : Char) (column : Nat)
    (hprevious : previous = '\n' → cs.head? ≠ some '\n') :
    readSingle (folded indent previous column (doubledQuotes cs) ++ '\'' :: tail) =
      .ok (cs, tail) := by
  induction cs using runs_induction generalizing previous column with
  | nil => exact readSingle_end htail
  | char c cs hc ih =>
      have hrest (column : Nat) := ih h.tail c column fun heq => absurd heq hc
      by_cases hspace : c = ' '
      · subst hspace
        exact readSingle_folded_space hindent h previous column hrest
      · by_cases hquote : c = '\''
        · subst hquote
          rw [doubledQuotes_quote, folded_char (by decide) (by decide),
            folded_char (by decide) (by decide), List.cons_append, List.cons_append,
            readSingle_quotes, hrest]
          rfl
        · rw [doubledQuotes_cons hquote, folded_char hspace hc, List.cons_append,
            readSingle_char (h.isGap_head hspace hc) hquote, hrest]
          rfl
  | run k cs hcs ih =>
      have hnot : previous ≠ '\n' := fun heq => hprevious heq (by simp [List.replicate_succ])
      exact readSingle_folded_run hindent h hnot column hcs fun column =>
        ih h.of_run.tail _ column fun _ => hcs

end

end ApneaScoring.Yaml
