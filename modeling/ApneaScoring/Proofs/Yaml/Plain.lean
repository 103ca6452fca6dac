import ApneaScoring.Proofs.Yaml.Folding

namespace ApneaScoring.Yaml

theorem length_takeWord_le (inFlow : Bool) (cs : List Char) :
    (takeWord inFlow cs).2.length ≤ cs.length := by
  induction cs with
  | nil => exact Nat.le_refl 0
  | cons c rest ih =>
      rw [takeWord]
      split
      · exact Nat.le_refl _
      · exact Nat.le_succ_of_le ih

theorem length_wordGap_lt {cs : List Char} (h : (wordGap cs).text ≠ []) :
    (wordGap cs).rest.length < cs.length := by
  have hsplit := List.takeWhile_append_dropWhile (p := isSpace) (l := cs)
  have hlength := congrArg List.length hsplit
  rw [List.length_append] at hlength
  unfold wordGap at h ⊢
  cases hdrop : cs.dropWhile isSpace with
  | nil =>
      rw [hdrop] at h
      have hpos : 0 < cs.length := by
        rw [List.length_pos_iff]
        rintro rfl
        exact h rfl
      simpa using hpos
  | cons c rest =>
      rw [hdrop] at h hlength
      rw [List.length_cons] at hlength
      cases hbreak : isBreak c with
      | true =>
          have hle := length_emptyLines isSpace 0 rest
          simp only [hbreak, if_true]
          exact Nat.lt_of_le_of_lt hle (by omega)
      | false =>
          simp only [hbreak, Bool.false_eq_true, if_false] at h ⊢
          have hpos := List.length_pos_iff.mpr h
          simp only [List.length_cons]
          omega

section

variable {inFlow : Bool} {least : Nat}

theorem readPlain_eq (cs : List Char) : readPlain inFlow least cs =
    if (wordGap (takeWord inFlow cs).2).continues inFlow least = true ∧
        wordEnds inFlow (wordGap (takeWord inFlow cs).2).rest = false then
      let more := readPlain inFlow least (wordGap (takeWord inFlow cs).2).rest
      ⟨(takeWord inFlow cs).1 ++ (wordGap (takeWord inFlow cs).2).text ++ more.text, more.rest,
        more.endsLine⟩
    else ⟨(takeWord inFlow cs).1, (wordGap (takeWord inFlow cs).2).rest,
      (wordGap (takeWord inFlow cs).2).column.isSome⟩ := by
  rw [readPlain]
  by_cases h : (wordGap (takeWord inFlow cs).2).continues inFlow least = true ∧
      wordEnds inFlow (wordGap (takeWord inFlow cs).2).rest = false
  · have htext : (wordGap (takeWord inFlow cs).2).text ≠ [] := by
      have hcontinues := h.1
      rintro hnil
      simp [WordGap.continues, hnil] at hcontinues
    have hlength := Nat.lt_of_lt_of_le (length_wordGap_lt htext) (length_takeWord_le inFlow cs)
    rw [if_pos h, dif_pos ⟨hlength, h⟩]
  · rw [if_neg h, dif_neg fun hall => h hall.2]

def PlainText.before (text : List Char) (read : PlainText) : PlainText :=
  { read with text := text ++ read.text }

theorem readPlain_char {c : Char} {rest : List Char} (h : wordEnds inFlow (c :: rest) = false) :
    readPlain inFlow least (c :: rest) = (readPlain inFlow least rest).before [c] := by
  have hword : takeWord inFlow (c :: rest) =
      (c :: (takeWord inFlow rest).1, (takeWord inFlow rest).2) := by
    rw [takeWord, h]
    rfl
  rw [readPlain_eq (c :: rest), readPlain_eq rest, hword]
  split <;> rfl

theorem takeWord_of_wordEnds {cs : List Char} (h : wordEnds inFlow cs = true) :
    takeWord inFlow cs = ([], cs) := by
  cases cs with
  | nil => rfl
  | cons c rest => rw [takeWord, if_pos h]

theorem readPlain_gap {cs : List Char} (h : wordEnds inFlow cs = true)
    (hcontinues : (wordGap cs).continues inFlow least = true)
    (hrest : wordEnds inFlow (wordGap cs).rest = false) :
    readPlain inFlow least cs =
      (readPlain inFlow least (wordGap cs).rest).before (wordGap cs).text := by
  rw [readPlain_eq cs, takeWord_of_wordEnds h, if_pos ⟨hcontinues, hrest⟩]
  rfl

theorem readPlain_end {cs : List Char} (h : wordEnds inFlow cs = true)
    (hcontinues : (wordGap cs).continues inFlow least = false) :
    readPlain inFlow least cs = ⟨[], (wordGap cs).rest, (wordGap cs).column.isSome⟩ := by
  rw [readPlain_eq cs, takeWord_of_wordEnds h, if_neg]
  simp [hcontinues]

def GoesOn (cs : List Char) : Prop :=
  ∃ c rest, cs.dropWhile isSpace = c :: rest ∧ c ≠ '#' ∧ wordEnds false (c :: rest) = false

theorem isBreak_of_wordEnds {c : Char} {rest : List Char}
    (h : wordEnds inFlow (c :: rest) = false) : isBreak c = false := by
  simp only [wordEnds, Bool.or_eq_false_iff] at h
  exact isBreak_of_isGap h.1.1

theorem GoesOn.wordGap {cs : List Char} (h : GoesOn cs) :
    wordGap cs = ⟨cs.takeWhile isSpace, none, cs.dropWhile isSpace⟩ := by
  obtain ⟨c, rest, hdrop, -, hends⟩ := h
  simp [Yaml.wordGap, hdrop, isBreak_of_wordEnds hends]

theorem GoesOn.space {cs : List Char} (h : GoesOn cs) : GoesOn (' ' :: cs) := by
  unfold GoesOn
  rwa [List.dropWhile_cons_of_pos rfl]

theorem GoesOn.readPlain {cs : List Char} (h : GoesOn cs) :
    readPlain false least cs =
      (readPlain false least (cs.dropWhile isSpace)).before (cs.takeWhile isSpace) := by
  cases cs with
  | nil => rfl
  | cons c rest =>
      by_cases hc : isSpace c = true
      · obtain rfl : c = ' ' := of_decide_eq_true hc
        have hgap := h.wordGap
        obtain ⟨d, after, hdrop, hsign, hends⟩ := h
        have hcontinues : (Yaml.wordGap (' ' :: rest)).continues false least = true := by
          rw [hgap, hdrop]
          simp [WordGap.continues, isSpace, hsign]
        have hrest : (Yaml.wordGap (' ' :: rest)).rest = d :: after := by
          rw [hgap, ← hdrop]
        rw [readPlain_gap rfl hcontinues (by rw [hrest, hends]), hgap]
      · rw [List.dropWhile_cons_of_neg hc, List.takeWhile_cons_of_neg hc]
        rfl

theorem GoesOn.readPlain_space {cs : List Char} (h : GoesOn cs) :
    Yaml.readPlain false least (' ' :: cs) = (Yaml.readPlain false least cs).before [' '] := by
  rw [h.space.readPlain, h.readPlain, List.dropWhile_cons_of_pos rfl,
    List.takeWhile_cons_of_pos rfl]
  rfl

theorem readPlain_line {indent : Nat} (hindent : 0 < indent) (hleast : least ≤ indent) {c : Char}
    {rest : List Char} (hsign : c ≠ '#') (h : wordEnds false (c :: rest) = false) :
    readPlain false least (newLine indent ++ c :: rest) =
      (readPlain false least (c :: rest)).before [' '] := by
  have hbreak := isBreak_of_wordEnds h
  have hspace : isSpace c = false := by
    rw [← Bool.not_eq_true]
    intro hc
    obtain rfl : c = ' ' := of_decide_eq_true hc
    cases h
  have hlines := emptyLines_lines isSpace rfl rfl 0 hindent hspace hbreak rest
  rw [List.replicate_zero, List.nil_append] at hlines
  have hgap : wordGap (newLine indent ++ c :: rest) = ⟨[' '], some indent, c :: rest⟩ := by
    rw [newLine, List.cons_append, wordGap, List.dropWhile_cons_of_neg (by decide)]
    have hend : isBreak '\n' = true := rfl
    simp only [hend, if_true, hlines]
    rfl
  have hcontinues : (wordGap (newLine indent ++ c :: rest)).continues false least = true := by
    rw [hgap]
    simp [WordGap.continues, hsign, hleast, Nat.pos_iff_ne_zero.mp hindent]
  rw [readPlain_gap rfl hcontinues (by rw [hgap, h]), hgap]

end

/-- Plain characters without a sign among them, the last of them no blank. -/
structure FitsLine (cs : List Char) : Prop where
  mem : ∀ c ∈ cs, isPlainAscii c = true
  inner : hasInnerSign cs = false
  last : endsWithSpace cs = false

namespace FitsLine

variable {c d : Char} {cs : List Char}

theorem tail (h : FitsLine (c :: cs)) : FitsLine cs := by
  refine ⟨fun d hd => h.mem d (List.mem_cons_of_mem _ hd), ?_, ?_⟩
  · cases cs with
    | nil => rfl
    | cons d cs =>
        have hinner := h.inner
        rw [hasInnerSign, Bool.or_eq_false_iff] at hinner
        exact hinner.2
  · cases cs with
    | nil => rfl
    | cons d cs =>
        have hlast := h.last
        rwa [endsWithSpace, List.getLast?_cons_cons] at hlast

theorem isGap_head (h : FitsLine (c :: cs)) (hc : c ≠ ' ') : isGap c = false :=
  isGap_of_isPlainAscii (h.mem c List.mem_cons_self) hc

theorem after_colon (h : FitsLine (':' :: cs)) : ∃ d rest, cs = d :: rest ∧ isGap d = false := by
  cases cs with
  | nil => cases h.inner
  | cons d rest =>
      have hinner := h.inner
      simp only [hasInnerSign, decide_true, Bool.true_and, Bool.or_eq_false_iff] at hinner
      exact ⟨d, rest, rfl, hinner.1.1⟩

theorem after_space (h : FitsLine (' ' :: cs)) : ∃ d rest, cs = d :: rest ∧ d ≠ '#' := by
  cases cs with
  | nil => cases h.last
  | cons d rest =>
      refine ⟨d, rest, rfl, ?_⟩
      rintro rfl
      cases h.inner

end FitsLine

section

variable {indent least : Nat} {c : Char} {cs : List Char}

theorem wordEnds_folded (h : FitsLine (c :: cs)) (hc : c ≠ ' ') (indent column : Nat)
    (previous : Char) (tail : List Char) :
    wordEnds false (c :: (folded indent previous column cs ++ '\n' :: tail)) = false := by
  have hgap := h.isGap_head hc
  by_cases hcolon : c = ':'
  · subst hcolon
    obtain ⟨d, rest, rfl, hd⟩ := h.after_colon
    rw [folded_of_isGap hd]
    simp [wordEnds, hgap, atGap, hd]
  · simp [wordEnds, hgap, hcolon]

theorem goesOn_folded (h : FitsLine (' ' :: cs)) (indent column : Nat) (tail : List Char) :
    GoesOn (folded indent ' ' column cs ++ '\n' :: tail) := by
  induction cs generalizing column with
  | nil => cases h.last
  | cons c cs ih =>
      by_cases hc : c = ' '
      · subst hc
        rw [folded_space, isAlone_space, Bool.and_false, if_neg Bool.false_ne_true]
        exact (ih h.tail _).space
      · obtain ⟨d, rest, hcons, hsign⟩ := h.after_space
        obtain ⟨rfl, rfl⟩ := List.cons.inj hcons
        have hends := wordEnds_folded h.tail hc indent (column + 1) c tail
        rw [folded_of_isGap (h.tail.isGap_head hc), List.cons_append]
        refine ⟨c, _, ?_, hsign, hends⟩
        rw [List.dropWhile_cons_of_neg (by simpa [isSpace] using hc)]

/-- A line of plain text is read as it is, wherever it was folded, up to a line that is not
indented enough. -/
theorem readPlain_folded (hindent : 0 < indent) (hleast : least ≤ indent) {tail : List Char}
    (htail : (wordGap ('\n' :: tail)).continues false least = false) (h : FitsLine cs)
    (previous : Char) (column : Nat) :
    readPlain false least (folded indent previous column cs ++ '\n' :: tail) =
      ⟨cs, (wordGap ('\n' :: tail)).rest, true⟩ := by
  induction cs generalizing previous column with
  | nil =>
      refine (readPlain_end rfl htail).trans ?_
      have hline : (wordGap ('\n' :: tail)).column.isSome = true := rfl
      rw [hline]
  | cons c cs ih =>
      have hrest := ih h.tail
      by_cases hc : c = ' '
      · subst hc
        rw [folded_space]
        split
        · next hfold =>
            obtain ⟨d, rest, rfl, hsign⟩ := h.after_space
            have hd : d ≠ ' ' := by
              rintro rfl
              simp [isAlone] at hfold
            have hends := wordEnds_folded h.tail hd indent (indent + 1) d tail
            have hfolded : folded indent ' ' indent (d :: rest) ++ '\n' :: tail =
                d :: (folded indent d (indent + 1) rest ++ '\n' :: tail) := by
              rw [folded_of_isGap (h.tail.isGap_head hd), List.cons_append]
            rw [List.append_assoc, hfolded, readPlain_line hindent hleast hsign hends, ← hfolded,
              hrest]
            rfl
        · rw [List.cons_append, (goesOn_folded h _ _ _).readPlain_space, hrest]
          rfl
      · rw [folded_of_isGap (h.isGap_head hc), List.cons_append,
          readPlain_char (wordEnds_folded h hc _ _ _ _), hrest]
        rfl

end

end ApneaScoring.Yaml
