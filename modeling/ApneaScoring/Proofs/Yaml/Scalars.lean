import ApneaScoring.Proofs.Yaml.Escaping
import ApneaScoring.Proofs.Yaml.Number
import ApneaScoring.Proofs.Yaml.Scanning

namespace ApneaScoring.Yaml

open Cursor

section

variable {bound column indent : Nat} {outer : List Nat} {cs tail : List Char}
  {after : List Token}

theorem wordGap_of_resumes (h : Resumes bound tail) :
    (wordGap ('\n' :: tail)).continues false (bound + 1) = false ∧
      ∃ n, tail = spaces n ++ (wordGap ('\n' :: tail)).rest ∧
        ∀ column indents, (inBlock (wordGap ('\n' :: tail)).rest (column + n) indents true).skip =
          (inBlock tail column indents true).skip := by
  have hline (tail : List Char) : wordGap ('\n' :: tail) =
      ⟨foldedBreaks '\n' (emptyLines isSpace 0 tail).1, some (emptyLines isSpace 0 tail).2.1,
        (emptyLines isSpace 0 tail).2.2⟩ := by
    have hbreak : isBreak '\n' = true := rfl
    rw [wordGap, List.dropWhile_cons_of_neg (by decide)]
    simp only [hbreak, if_true]
  cases h with
  | nothing =>
      refine ⟨?_, 0, rfl, fun column indents => rfl⟩
      simp [hline, emptyLines, WordGap.continues]
  | @key n hle c hc rest =>
      obtain ⟨-, hspace, hsign, -, -, hminus, hpoint⟩ := isKeyChar_iff.mp hc
      have hgap := isGap_of_isKeyChar hc
      have hmarker : atMarker (c :: rest) = false := by
        unfold atMarker
        split
        · next heq => exact absurd (List.cons.inj heq).1 hminus
        · next heq => exact absurd (List.cons.inj heq).1 hpoint
        · rfl
      have hcomment := (ne_of_isKeyChar hc).1
      have hlines : emptyLines isSpace 0 (spaces n ++ c :: rest) = ([], n, c :: rest) := by
        rw [spaces, emptyLines_spaces rfl, emptyLines_stop (.inr hmarker) _ (isBreak_of_isGap hgap),
          Nat.zero_add]
        simpa [isSpace] using hspace
      rw [hline, hlines]
      refine ⟨?_, n, rfl, fun column indents => ?_⟩
      · simp [WordGap.continues]
        omega
      · rw [spaces, skip_word hgap hcomment]
        exact skip_word hgap hcomment 0

theorem columnAfter_line (column : Nat) (cs rest : List Char) :
    columnAfter column (cs ++ '\n' :: rest) = columnAfter 0 rest := by
  rw [columnAfter_append]
  rfl

theorem columnAfter_spaces (n : Nat) : columnAfter 0 (spaces n) = n := by
  rw [columnAfter_word, spaces, List.length_replicate, Nat.zero_add]
  intro c hc
  rw [(List.mem_replicate.mp hc).2]
  decide

theorem startsPlain_folded (hstarts : startsPlain false cs = true) (hline : FitsLine cs)
    (indent column : Nat) (previous : Char) (tail : List Char) :
    startsPlain false (folded indent previous column cs ++ '\n' :: tail) = true := by
  cases cs with
  | nil => cases hstarts
  | cons c cs =>
      have hgap : isGap c = false := by
        apply hline.isGap_head
        rintro rfl
        cases hstarts
      rw [folded_of_isGap hgap, List.cons_append]
      by_cases hsign : c = '-' ∨ c = '?' ∨ c = ':'
      · -- Behind such a sign a word goes on, in the text and in what is written of it.
        have hnext : atGap cs = false := by
          rcases hsign with rfl | rfl | rfl <;> simpa [startsPlain] using hstarts
        have hwritten : atGap (folded indent c (column + 1) cs ++ '\n' :: tail) = false := by
          cases cs with
          | nil => cases hnext
          | cons d cs =>
              rw [folded_of_isGap hnext]
              exact hnext
        rcases hsign with rfl | rfl | rfl <;> simp [startsPlain, hwritten]
      · simp only [not_or] at hsign
        simpa [startsPlain, hsign] using hstarts

theorem Yields.scalar {rest : List Char} {token : Token} {endsLine : Bool}
    (h : Yields ({ (inBlock cs column (bound :: outer) false).moveTo rest with
      allowsKey := endsLine } : Cursor).skip after)
    (hlexeme : (inBlock cs column (bound :: outer) false).lexeme =
      (inBlock cs column (bound :: outer) false).node)
    (hproperties : (inBlock cs column (bound :: outer) false).properties 2 cs = .ok ([], cs))
    (hcontent : (inBlock cs column (bound :: outer) false).content cs =
      .ok ⟨[token], rest, endsLine⟩)
    (hlength : rest.length < cs.length) (hcolumn : bound ≤ column) :
    Yields (inBlock cs column (bound :: outer) false) (token :: after) := by
  have hne : cs ≠ [] := List.length_pos_iff.mp (Nat.zero_lt_of_lt hlength)
  refine h.lexeme hne ?_ (hlexeme.trans (node_scalar hproperties hcontent)) hlength
  rintro indent ⟨⟩
  exact hcolumn

theorem Yields.plain (h : Yields (inBlock tail 0 (bound :: outer) true).skip after)
    (htail : Resumes bound tail) (hindent : bound < indent) (hcolumn : indent ≤ column)
    (hstarts : startsPlain false cs = true) (hline : FitsLine cs) :
    Yields (inBlock (folded indent ' ' column cs ++ '\n' :: tail) column (bound :: outer) false)
      (.scalar true (String.ofList cs) :: after) := by
  obtain ⟨hends, n, htext, hskip⟩ := wordGap_of_resumes htail
  have hfolded := startsPlain_folded hstarts hline indent column ' ' tail
  have hread := readPlain_folded (by omega) hindent hends hline ' ' column
  have hcontent := content_eq_plain hfolded
    (c := inBlock (folded indent ' ' column cs ++ '\n' :: tail) column (bound :: outer) false) rfl
  have hleast : (inBlock (folded indent ' ' column cs ++ '\n' :: tail) column (bound :: outer)
      false).leastColumn = bound + 1 := rfl
  rw [hleast, hread] at hcontent
  have hmove : (inBlock (folded indent ' ' column cs ++ '\n' :: tail) column (bound :: outer)
      false).moveTo (wordGap ('\n' :: tail)).rest =
        inBlock (wordGap ('\n' :: tail)).rest n (bound :: outer) false := by
    have hsplit : folded indent ' ' column cs ++ '\n' :: tail =
        (folded indent ' ' column cs ++ '\n' :: spaces n) ++ (wordGap ('\n' :: tail)).rest := by
      rw [List.append_assoc, List.cons_append, ← htext]
    rw [hsplit, moveTo_append, columnAfter_line, columnAfter_spaces]
  refine Yields.scalar ?_ (lexeme_eq_node hfolded (.inl (by omega))) (properties_eq_nil hfolded _)
    hcontent ?_ (by omega)
  · rw [hmove]
    have hplace := hskip 0 (bound :: outer)
    rw [Nat.zero_add] at hplace
    exact hplace ▸ h
  · have hlength := congrArg List.length htext
    simp only [List.length_append, List.length_cons] at hlength ⊢
    omega

theorem fitsLine_of_fitsPlain (h : fitsPlain cs = true) : FitsLine cs := by
  simp only [fitsPlain, Bool.and_eq_true, Bool.not_eq_true', List.all_eq_true] at h
  exact ⟨h.2, h.1.1.1.2, h.1.2⟩

theorem startsPlain_of_fitsPlain (h : fitsPlain cs = true) : startsPlain false cs = true := by
  have hline := fitsLine_of_fitsPlain h
  simp only [fitsPlain, Bool.and_eq_true, Bool.not_eq_true'] at h
  cases cs with
  | nil => cases h.1.1.1.1
  | cons c cs =>
      have hspace : c ≠ ' ' := by
        rintro rfl
        cases h.1.1.2
      have hbegins := h.1.1.1.1
      simp only [beginsWithSign, Bool.or_eq_false_iff] at hbegins
      obtain ⟨⟨⟨hsign, hmark⟩, -⟩, -⟩ := hbegins
      by_cases hsame : c = '-' ∨ c = '?' ∨ c = ':'
      · rcases hsame with rfl | rfl | rfl <;> simpa [startsPlain] using hmark
      · simp only [not_or] at hsame
        simp [startsPlain, hsame, hsign, hline.isGap_head hspace]

def textFor (indent : Nat) (cs : List Char) : List Char :=
  if isPlain cs || fitsSingle cs then cs else readFor indent true cs

theorem textFor_eq_self_iff {indent : Nat} {cs : List Char} :
    textFor indent cs = cs ↔ indent < width ∨ isPlain cs = true ∨ fitsSingle cs = true ∨
      hasEscapedBlank true cs = false := by
  unfold textFor readFor
  rw [← spoiled_eq_self_iff]
  split
  · next h =>
      rw [Bool.or_eq_true] at h
      tauto
  · next h =>
      rw [Bool.or_eq_true, not_or] at h
      by_cases hwidth : width ≤ indent
      · rw [if_pos hwidth]
        have hnot : ¬indent < width := by omega
        tauto
      · rw [if_neg hwidth]
        have hlt : indent < width := by omega
        tauto

theorem textFor_ne_nil {indent : Nat} {cs : List Char} (h : cs ≠ []) : textFor indent cs ≠ [] := by
  have hlength := length_le_spoiled true cs
  have hpos := List.length_pos_iff.mpr h
  rw [← List.length_pos_iff]
  unfold textFor readFor
  split
  · exact hpos
  · split <;> omega

theorem Yields.quoted (h : Yields (inBlock tail 0 (bound :: outer) true).skip after)
    (hcolumn : bound ≤ column) {q : Char} {inner text : List Char}
    (hlexeme : (inBlock (q :: inner) column (bound :: outer) false).lexeme =
      (inBlock (q :: inner) column (bound :: outer) false).node)
    (hproperties : (inBlock (q :: inner) column (bound :: outer) false).properties 2 (q :: inner) =
      .ok ([], q :: inner))
    (hcontent : (inBlock (q :: inner) column (bound :: outer) false).content (q :: inner) =
      .ok ⟨[.scalar false (String.ofList text)], '\n' :: tail, false⟩)
    (hlength : tail.length < inner.length) :
    Yields (inBlock (q :: inner) column (bound :: outer) false)
      (.scalar false (String.ofList text) :: after) := by
  refine Yields.scalar ?_ hlexeme hproperties hcontent (Nat.succ_lt_succ hlength) hcolumn
  change Yields (inBlock ('\n' :: tail) _ (bound :: outer) false).skip after
  rw [skip_line]
  exact h

theorem lexeme_quoted {q : Char} (hq : q = '\'' ∨ q = '"') (hcolumn : 0 < column)
    (inner : List Char) : (inBlock (q :: inner) column outer false).lexeme =
      (inBlock (q :: inner) column outer false).node := by
  have hnone : decide ((inBlock (q :: inner) column outer false).column = 0) = false :=
    decide_eq_false (Nat.pos_iff_ne_zero.mp hcolumn)
  rw [Cursor.lexeme, hnone, Bool.false_and, if_neg Bool.false_ne_true]
  rcases hq with rfl | rfl <;> rfl

theorem Yields.single (h : Yields (inBlock tail 0 (bound :: outer) true).skip after)
    (hindent : bound < indent) (hcolumn : indent ≤ column) {cs : List Char} (hcs : FitsSingle cs) :
    Yields (inBlock (writeSingle indent column cs ++ '\n' :: tail) column (bound :: outer) false)
      (.scalar false (String.ofList cs) :: after) := by
  have hopen : ('\n' :: tail).head? ≠ some '\'' := by simp
  have hread := readSingle_folded (Nat.zero_lt_of_lt hindent) hopen hcs ' ' (column + 1) (by simp)
  rw [writeSingle, List.cons_append, List.cons_append, List.append_assoc, List.singleton_append]
  refine h.quoted (by omega) (lexeme_quoted (.inl rfl) (by omega) _) rfl ?_ ?_
  · change Cursor.quoted (readSingle _) = _
    rw [hread]
    rfl
  · simp
    omega

theorem Yields.double (h : Yields (inBlock tail 0 (bound :: outer) true).skip after)
    (hindent : bound < indent) (hcolumn : indent ≤ column) (cs : List Char) :
    Yields (inBlock (writeDouble indent column cs ++ '\n' :: tail) column (bound :: outer) false)
      (.scalar false (String.ofList (readFor indent true cs)) :: after) := by
  have hread := isReadBack (Nat.zero_lt_of_lt hindent) ('\n' :: tail) cs true false (column + 1)
    (by omega)
  rw [writeDouble, List.cons_append, List.cons_append, List.append_assoc, List.singleton_append]
  refine h.quoted (by omega) (lexeme_quoted (.inr rfl) (by omega) _) rfl ?_ ?_
  · change Cursor.quoted (readDouble _) = _
    rw [hread]
    rfl
  · simp
    omega

/-- A text behind its key is scanned as what is read for it. -/
theorem Yields.text (h : Yields (inBlock tail 0 (bound :: outer) true).skip after)
    (htail : Resumes bound tail) (hindent : bound < indent) (hcolumn : indent ≤ column)
    (cs : List Char) :
    Yields (inBlock (writeText indent column cs ++ '\n' :: tail) column (bound :: outer) false)
      (.scalar (isPlain cs) (String.ofList (textFor indent cs)) :: after) := by
  unfold writeText textFor
  cases hplain : isPlain cs with
  | true =>
      have hfits : fitsPlain cs = true := by
        simp only [isPlain, Bool.and_eq_true] at hplain
        exact hplain.2
      exact h.plain htail hindent hcolumn (startsPlain_of_fitsPlain hfits)
        (fitsLine_of_fitsPlain hfits)
  | false =>
      cases hsingle : fitsSingle cs with
      | true => exact h.single hindent hcolumn ((fitsSingle_iff cs).mp hsingle)
      | false => exact h.double hindent hcolumn cs

theorem mem_floatText {x : Binary64} {c : Char} (h : c ∈ floatText x) :
    c ≠ ':' ∧ isGap c = false ∧ isPlainAscii c = true := by
  cases x with
  | finite negative units representable =>
      obtain ⟨n, hproper, htext, -⟩ := exists_numeral_floatText negative representable
      have hall : ∀ c ∈ "0123456789.e+-".toList,
          c ≠ ':' ∧ isGap c = false ∧ isPlainAscii c = true :=
        List.all_iff_forall_prop.mp (by decide)
      rw [htext] at h
      exact hall c (List.contains_iff_mem.mp (isNumeralChar_signed negative hproper c h))
  | infinite negative =>
      have hall : ∀ c ∈ "-.inf".toList, c ≠ ':' ∧ isGap c = false ∧ isPlainAscii c = true :=
        List.all_iff_forall_prop.mp (by decide)
      apply hall c
      cases negative with
      | true => exact h
      | false => exact List.mem_cons_of_mem _ h
  | nan =>
      have hall : ∀ c ∈ ".nan".toList, c ≠ ':' ∧ isGap c = false ∧ isPlainAscii c = true :=
        List.all_iff_forall_prop.mp (by decide)
      exact hall c h

theorem startsPlain_floatText (x : Binary64) : startsPlain false (floatText x) = true := by
  cases x with
  | finite negative units representable =>
      obtain ⟨n, hproper, htext, -⟩ := exists_numeral_floatText negative representable
      obtain ⟨c, rest, hwhole, hc⟩ := hproper.exists_whole
      have hall : ∀ c ∈ "0123456789".toList, c ≠ '-' ∧ c ≠ '?' ∧ c ≠ ':' ∧ isSign c = false ∧
          isGap c = false := List.all_iff_forall_prop.mp (by decide)
      obtain ⟨hminus, hquestion, hcolon, hsign, hgap⟩ := hall c (Text.mem_digits_of_isDigit hc)
      rw [htext, Numeral.chars, hwhole]
      cases negative with
      | true => simp [signChars, startsPlain, atGap, hgap]
      | false => simp [signChars, startsPlain, hminus, hquestion, hcolon, hsign, hgap]
  | infinite negative => cases negative <;> decide
  | nan => decide

theorem fitsLine_of_word (h : ∀ c ∈ cs, c ≠ ':' ∧ isGap c = false ∧ isPlainAscii c = true) :
    FitsLine cs := by
  refine ⟨fun c hc => (h c hc).2.2, ?_, ?_⟩
  · induction cs with
    | nil => rfl
    | cons c cs ih =>
        rw [List.forall_mem_cons] at h
        cases cs with
        | nil => simpa [hasInnerSign] using h.1.1
        | cons d cs => simp [hasInnerSign, h.1.1, h.1.2.1, ih h.2]
  · rw [endsWithSpace, decide_eq_false_iff_not]
    intro hlast
    exact absurd (h ' ' (List.mem_of_getLast? hlast)).2.1 (by decide)

theorem folded_word (h : ∀ c ∈ cs, isGap c = false) (indent column : Nat) (previous : Char) :
    folded indent previous column cs = cs := by
  induction cs generalizing previous column with
  | nil => rfl
  | cons c cs ih =>
      rw [List.forall_mem_cons] at h
      rw [folded_of_isGap h.1, ih h.2]

theorem Yields.float (h : Yields (inBlock tail 0 (bound :: outer) true).skip after)
    (htail : Resumes bound tail) (hcolumn : bound < column) (x : Binary64) :
    Yields (inBlock (floatText x ++ '\n' :: tail) column (bound :: outer) false)
      (.scalar true (String.ofList (floatText x)) :: after) := by
  have hplain := h.plain htail (Nat.lt_succ_self bound) hcolumn (startsPlain_floatText x)
    (fitsLine_of_word fun c hc => mem_floatText hc)
  rwa [folded_word fun c hc => (mem_floatText hc).2.1] at hplain

theorem exists_cons_of_startsPlain (h : startsPlain false cs = true) :
    ∃ c rest, cs = c :: rest ∧ isGap c = false ∧ c ≠ '#' := by
  cases cs with
  | nil => cases h
  | cons c rest =>
      refine ⟨c, rest, rfl, ?_, ?_⟩
      · rw [← Bool.not_eq_true]
        intro hgap
        simp only [isGap, isBreak, Bool.or_eq_true, decide_eq_true_eq] at hgap
        rcases hgap with (rfl | rfl) | (rfl | rfl) | rfl <;> cases h
      · rintro rfl
        cases h

theorem skip_blank {allowsKey : Bool} (h : ∃ c rest, cs = c :: rest ∧ isGap c = false ∧ c ≠ '#') :
    (inBlock (' ' :: cs) column outer allowsKey).skip =
      inBlock cs (column + 1) outer allowsKey := by
  obtain ⟨c, rest, rfl, hgap, hsign⟩ := h
  exact skip_word hgap hsign 1

theorem exists_writeText_cons (indent column : Nat) (cs rest : List Char) :
    ∃ c after, writeText indent column cs ++ '\n' :: rest = c :: after ∧ isGap c = false ∧
      c ≠ '#' := by
  unfold writeText
  split
  · next hplain =>
      simp only [isPlain, Bool.and_eq_true] at hplain
      exact exists_cons_of_startsPlain (startsPlain_folded (startsPlain_of_fitsPlain hplain.2)
        (fitsLine_of_fitsPlain hplain.2) _ _ _ _)
  · split
    · exact ⟨'\'', _, rfl, rfl, by decide⟩
    · exact ⟨'"', _, rfl, rfl, by decide⟩

theorem exists_floatText_cons (x : Binary64) (rest : List Char) :
    ∃ c after, floatText x ++ rest = c :: after ∧ isGap c = false ∧ c ≠ '#' := by
  obtain ⟨c, after, htext, hgap, hsign⟩ := exists_cons_of_startsPlain (startsPlain_floatText x)
  exact ⟨c, after ++ rest, by rw [htext]; rfl, hgap, hsign⟩

end

end ApneaScoring.Yaml
