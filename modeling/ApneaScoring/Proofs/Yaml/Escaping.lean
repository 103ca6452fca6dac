import ApneaScoring.Proofs.Yaml.Folding
import Mathlib.Data.Nat.Digits.Lemmas

/-! Lines end behind a backslash, which is no part of the text. Where the indentation leaves no
width at all, such a line is ended again at once, and the two backslashes are read as one
character, the line end behind them as a blank. -/

namespace ApneaScoring.Yaml

open Text

theorem exists_digitChar_of_mem_toDigits {n : Nat} {c : Char} (h : c ∈ Nat.toDigits 16 n) :
    ∃ d < 16, c = Nat.digitChar d := by
  induction n using Nat.strong_induction_on with
  | _ n ih =>
      by_cases hlow : n < 16
      · rw [Nat.toDigits_of_lt_base hlow] at h
        exact ⟨n, hlow, List.mem_singleton.mp h⟩
      · rw [Nat.toDigits_of_base_le (by decide) (by omega)] at h
        rcases List.mem_append.mp h with hc | hc
        · exact ih (n / 16) (by omega) hc
        · exact ⟨n % 16, by omega, List.mem_singleton.mp hc⟩

theorem digitIn?_upper : ∀ d < 16, Number.digitIn? 16 (Nat.digitChar d).toUpper = some d := by
  decide

def appendHex (n : Nat) (digits : List Char) : Option Nat :=
  digits.foldlM (fun n c => (Number.digitIn? 16 c).map (16 * n + ·)) n

theorem appendHex_append (n : Nat) (xs ys : List Char) :
    appendHex n (xs ++ ys) = appendHex n xs >>= fun m => appendHex m ys :=
  List.foldlM_append

theorem appendHex_toDigits (n : Nat) :
    appendHex 0 ((Nat.toDigits 16 n).map Char.toUpper) = some n := by
  induction n using Nat.strong_induction_on with
  | _ n ih =>
      by_cases hlow : n < 16
      · rw [Nat.toDigits_of_lt_base hlow]
        simp [appendHex, digitIn?_upper n hlow]
      · rw [Nat.toDigits_of_base_le (by decide) (by omega), List.map_append, appendHex_append,
          ih (n / 16) (by omega)]
        simp [appendHex, digitIn?_upper (n % 16) (by omega)]
        omega

theorem appendHex_zeros (k : Nat) : appendHex 0 (List.replicate k '0') = some 0 := by
  induction k with
  | zero => rfl
  | succ k ih => exact ih

theorem numeralIn?_upperHex (width n : Nat) :
    Number.numeralIn? 16 (upperHex width n) = some n := by
  have hne : (upperHex width n).isEmpty = false := by
    simp [upperHex, hexDigits, Nat.toDigits_ne_nil]
  rw [Number.numeralIn?, hne]
  simp only [Bool.false_eq_true, if_false]
  change appendHex 0 (upperHex width n) = some n
  rw [upperHex, hexDigits, List.map_append, List.map_replicate, appendHex_append]
  change (appendHex 0 (List.replicate _ '0') >>= _) = _
  rw [appendHex_zeros]
  exact appendHex_toDigits n

theorem length_upperHex {width n : Nat} (hwidth : 0 < width) (h : n < 16 ^ width) :
    (upperHex width n).length = width := by
  have hlength := Nat.toDigits_length 16 n width hwidth h
  simp only [upperHex, hexDigits, List.length_map, List.length_append, List.length_replicate]
  omega

theorem isHexDigit_of_mem_upperHex {width n : Nat} {c : Char} (h : c ∈ upperHex width n) :
    isHexDigit c = true ∧ isPlainAscii c = true := by
  obtain ⟨d, hd, rfl⟩ := List.mem_map.mp h
  have hall : ∀ d < 16, isHexDigit (Nat.digitChar d).toUpper = true ∧
      isPlainAscii (Nat.digitChar d).toUpper = true := by decide
  rcases List.mem_append.mp hd with hzero | hdigit
  · rw [(List.mem_replicate.mp hzero).2]
    decide
  · obtain ⟨e, he, rfl⟩ := exists_digitChar_of_mem_toDigits hdigit
    exact hall e he

theorem toNat_le_codePoint (c : Char) : c.toNat ≤ 0x10FFFF := by
  have hvalid := c.valid
  have hnat : c.toNat = c.val.toNat := rfl
  simp only [UInt32.isValidChar, Nat.isValidChar] at hvalid
  omega

theorem ofCode_upperHex (width : Nat) (c : Char) : ofCode (upperHex width c.toNat) = .ok c := by
  have hbound := toNat_le_codePoint c
  have hzero : (decide (c = '\x00') && c.toNat != 0) = false := by
    by_cases hc : c = '\x00'
    · subst hc
      rfl
    · simp [hc]
  rw [ofCode, numeralIn?_upperHex]
  simp only [Option.getD_some, Char.ofNat_toNat, hzero]
  rw [if_neg (by omega), if_neg (by omega)]
  rfl

theorem readEscape_code {letter c : Char} {width : Nat} (rest : List Char)
    (hletter : (escapes ++ otherEscapes).lookup letter = none)
    (hcount : digitCount? letter = some width) (hwidth : 0 < width)
    (h : c.toNat < 16 ^ width) :
    readEscape (letter :: (upperHex width c.toNat ++ rest)) = .ok ([c], rest) := by
  have hlength := length_upperHex hwidth h
  have hall : (upperHex width c.toNat).all isHexDigit = true :=
    List.all_eq_true.mpr fun d hd => (isHexDigit_of_mem_upperHex hd).1
  have htake : (upperHex width c.toNat ++ rest).take width = upperHex width c.toNat :=
    List.take_left' hlength
  have hdrop : (upperHex width c.toNat ++ rest).drop width = rest := List.drop_left' hlength
  simp only [readEscape, hletter, hcount, htake, hdrop, hlength, hall, ofCode_upperHex]
  rfl

theorem exists_escapeText (c : Char) :
    ∃ after, escapeText c = '\\' :: after ∧ after ≠ [] ∧
      ∀ rest, readEscape (after ++ rest) = .ok ([c], rest) := by
  unfold escapeText
  split
  · next letter e heq =>
      have hmem := List.mem_of_find?_eq_some heq
      have hfound := List.find?_some heq
      have hchar : e = c := by simpa using hfound
      have hall : ∀ entry ∈ escapes, (escapes ++ otherEscapes).lookup entry.1 = some entry.2 := by
        decide
      have hlookup := hall _ hmem
      refine ⟨[letter], rfl, List.cons_ne_nil _ _, fun rest => ?_⟩
      rw [List.cons_append, List.nil_append, readEscape]
      rw [hlookup, hchar]
  · have hbound := toNat_le_codePoint c
    have hcode (letter : Char) {width : Nat}
        (hletter : (escapes ++ otherEscapes).lookup letter = none)
        (hcount : digitCount? letter = some width) (hwidth : 0 < width)
        (hlow : c.toNat < 16 ^ width) (rest : List Char) :=
      readEscape_code rest hletter hcount hwidth hlow
    dsimp only
    split
    · next hlow =>
        exact ⟨_, rfl, List.cons_ne_nil _ _, hcode 'x' (by decide) rfl (by decide) hlow⟩
    · split
      · next hlow =>
          exact ⟨_, rfl, List.cons_ne_nil _ _, hcode 'u' (by decide) rfl (by decide) hlow⟩
      · exact ⟨_, rfl, List.cons_ne_nil _ _, hcode 'U' (by decide) rfl (by decide) (by omega)⟩

theorem readDouble_end (rest : List Char) : readDouble ('"' :: rest) = .ok ([], rest) := by
  rw [readDouble]

theorem readDouble_escape {cs text rest : List Char} (h : readEscape cs = .ok (text, rest)) :
    readDouble ('\\' :: cs) = (readDouble rest).map (prepend text) := by
  rw [readDouble]
  split
  · next heq =>
      rw [h] at heq
      cases heq
  · next heq =>
      rw [h] at heq
      cases heq
      rfl

theorem readDouble_escapeText (c : Char) (rest : List Char) :
    readDouble (escapeText c ++ rest) = (readDouble rest).map (prepend [c]) := by
  obtain ⟨after, htext, -, hread⟩ := exists_escapeText c
  rw [htext, List.cons_append, readDouble_escape (hread rest)]

theorem two_le_length_escapeText (c : Char) : 2 ≤ (escapeText c).length := by
  obtain ⟨after, htext, hne, -⟩ := exists_escapeText c
  have hpos := List.length_pos_iff.mpr hne
  simp only [htext, List.length_cons]
  omega

theorem takesGaps_readDouble : TakesGaps readDouble := by
  intro c rest h
  rw [readDouble.eq_def]
  split
  · next heq => cases heq
  · next heq =>
      obtain ⟨rfl, -⟩ := List.cons.inj heq
      cases h
  · next heq =>
      obtain ⟨rfl, -⟩ := List.cons.inj heq
      cases h
  · next heq =>
      obtain ⟨rfl, rfl⟩ := List.cons.inj heq
      rw [dif_pos h]

theorem readDouble_char {c : Char} (hgap : isGap c = false) (h : needsEscape c = false)
    (rest : List Char) : readDouble (c :: rest) = (readDouble rest).map (prepend [c]) := by
  rw [readDouble.eq_def]
  split
  · next heq => cases heq
  · next heq =>
      obtain ⟨rfl, -⟩ := List.cons.inj heq
      cases h
  · next heq =>
      obtain ⟨rfl, -⟩ := List.cons.inj heq
      cases h
  · next heq =>
      obtain ⟨rfl, rfl⟩ := List.cons.inj heq
      rw [dif_neg (by simp [hgap])]

theorem readDouble_lineEnd {indent : Nat} (hindent : 0 < indent) {c : Char}
    (h : isGap c = false) (rest : List Char) :
    readDouble ('\\' :: (newLine indent ++ c :: rest)) = readDouble (c :: rest) := by
  have hlines := emptyLines_lines isBlank rfl rfl 0 hindent (isBlank_of_isGap h)
    (isBreak_of_isGap h) rest
  rw [List.replicate_zero, List.nil_append] at hlines
  have hread : readEscape (newLine indent ++ c :: rest) = .ok ([], c :: rest) := by
    have hcolumn : (decide (indent = 0) && atMarker (c :: rest)) = false := by
      simp [Nat.pos_iff_ne_zero.mp hindent]
    have hletter : (escapes ++ otherEscapes).lookup '\n' = none := by decide
    have hcount : digitCount? '\n' = none := rfl
    have hbreak : isBreak '\n' = true := rfl
    rw [newLine, List.cons_append]
    simp only [readEscape, hletter, hcount, hbreak, if_true, quotedLines, hlines, hcolumn,
      Bool.false_eq_true, if_false]
  rw [readDouble_escape hread]
  cases readDouble (c :: rest) <;> rfl

theorem readDouble_space (rest : List Char) :
    readDouble ('\\' :: ' ' :: rest) = (readDouble rest).map (prepend [' ']) :=
  readDouble_escape rfl

theorem isGap_of_needsEscape {c : Char} (h : needsEscape c = false) (hspace : c ≠ ' ') :
    isGap c = false := by
  simp only [needsEscape, Bool.or_eq_false_iff, Bool.not_eq_false'] at h
  exact isGap_of_isPlainAscii h.2 hspace

section

variable {indent column : Nat} {isFirst afterEscape : Bool} {c : Char} {cs rest : List Char}

def splits (isFirst : Bool) (column : Nat) (rest : List Char) : Bool :=
  !isFirst && !rest.isEmpty && width < column

theorem escaped_escape (h : needsEscape c = true) :
    escaped indent isFirst afterEscape column (c :: rest) =
      if splits isFirst (column + (escapeText c).length - 1) rest then
        escapeText c ++ (escapedBreak indent rest ++
          escaped indent false true (breakWidth indent rest) rest)
      else escapeText c ++ escaped indent false true (column + (escapeText c).length) rest := by
  rw [escaped]
  simp only [h, if_true, splits, List.append_assoc]
  rfl

theorem escaped_char (h : needsEscape c = false) :
    escaped indent isFirst afterEscape column (c :: rest) =
      if splits isFirst column rest && (c = ' ' || afterEscape) then
        escapedBreak indent (c :: rest) ++
          c :: escaped indent false false (breakWidth indent (c :: rest) + 1) rest
      else c :: escaped indent false false (column + 1) rest := by
  rw [escaped]
  have hsame : (!isFirst && !rest.isEmpty && (decide (c = ' ') || afterEscape) &&
      decide (width < column)) =
        (splits isFirst column rest && (decide (c = ' ') || afterEscape)) := by
    rw [splits, Bool.and_right_comm]
  simp only [h, Bool.false_eq_true, if_false, hsame]

theorem escapedBreak_space : escapedBreak indent (' ' :: rest) =
    '\\' :: (newLine indent ++ ['\\']) := rfl

theorem escapedBreak_of_ne (h : c ≠ ' ') : escapedBreak indent (c :: rest) =
    '\\' :: newLine indent := by
  simp [escapedBreak, h]

theorem exists_escaped_cons (hc : c ≠ ' ') (isFirst afterEscape : Bool) (indent column : Nat)
    (cs tail : List Char) : ∃ d after, isGap d = false ∧
      escaped indent isFirst afterEscape column (c :: cs) ++ tail = d :: after := by
  by_cases hescape : needsEscape c = true
  · obtain ⟨text, htext, -⟩ := exists_escapeText c
    rw [escaped_escape hescape, htext]
    split <;> exact ⟨'\\', _, rfl, rfl⟩
  · rw [Bool.not_eq_true] at hescape
    rw [escaped_char hescape]
    split
    · exact ⟨'\\', _, rfl, rfl⟩
    · exact ⟨c, _, isGap_of_needsEscape hescape hc, rfl⟩

theorem keepsBlanks_escaped (cs : List Char) (isFirst afterEscape : Bool) (column : Nat)
    (tail : List Char) :
    KeepsBlanks (escaped indent isFirst afterEscape column cs ++ '"' :: tail) := by
  induction cs generalizing isFirst afterEscape column with
  | nil => exact .of_isGap rfl _
  | cons c cs ih =>
      by_cases hc : c = ' '
      · subst hc
        rw [escaped_char rfl]
        split
        · exact .of_isGap rfl _
        · exact (ih false false _).space
      · obtain ⟨d, after, hd, heq⟩ :=
          exists_escaped_cons hc isFirst afterEscape indent column cs ('"' :: tail)
        rw [heq]
        exact .of_isGap hd _

end

def startsWithBlank : List Char → Bool
  | ' ' :: rest => !rest.isEmpty
  | _ => false

theorem startsWithBlank_of_ne {c : Char} (h : c ≠ ' ') (rest : List Char) :
    startsWithBlank (c :: rest) = false := by
  unfold startsWithBlank
  split
  · next heq => exact absurd (List.cons.inj heq).1 h
  · rfl

/-- A backslash and a blank come between an escape and an inner blank behind it. -/
def spoiled (isFirst : Bool) : List Char → List Char
  | [] => []
  | c :: rest =>
      if !isFirst && needsEscape c && startsWithBlank rest then
        c :: '\\' :: ' ' :: spoiled false rest
      else c :: spoiled false rest

/-- Behind an escape that is not the first character stands a blank that is not the last. -/
def hasEscapedBlank (isFirst : Bool) : List Char → Bool
  | [] => false
  | c :: rest =>
      !isFirst && needsEscape c && startsWithBlank rest || hasEscapedBlank false rest

theorem length_le_spoiled (isFirst : Bool) (cs : List Char) :
    cs.length ≤ (spoiled isFirst cs).length := by
  induction cs generalizing isFirst with
  | nil => exact Nat.le_refl 0
  | cons c rest ih =>
      have hrest := ih false
      rw [spoiled]
      split <;> simp only [List.length_cons] <;> omega

theorem spoiled_eq_self_iff {isFirst : Bool} {cs : List Char} :
    spoiled isFirst cs = cs ↔ hasEscapedBlank isFirst cs = false := by
  induction cs generalizing isFirst with
  | nil => simp [spoiled, hasEscapedBlank]
  | cons c rest ih =>
      rw [spoiled, hasEscapedBlank]
      cases hblank : !isFirst && needsEscape c && startsWithBlank rest with
      | true =>
          have hne : c :: '\\' :: ' ' :: spoiled false rest ≠ c :: rest := by
            intro heq
            have hlength := congrArg List.length heq
            have hle := length_le_spoiled false rest
            simp only [List.length_cons] at hlength
            omega
          simp [hne]
      | false => simp [ih]

/-- The text that is read for one that was written in double quotes. -/
def readFor (indent : Nat) (isFirst : Bool) (cs : List Char) : List Char :=
  if width ≤ indent then spoiled isFirst cs else cs

section

variable {indent : Nat} {isFirst : Bool} {c : Char} {rest tail : List Char}

theorem readFor_cons : readFor indent isFirst (c :: rest) =
    if width ≤ indent ∧ isFirst = false ∧ needsEscape c = true ∧ startsWithBlank rest = true then
      c :: '\\' :: ' ' :: readFor indent false rest
    else c :: readFor indent false rest := by
  by_cases hwidth : width ≤ indent
  · cases isFirst <;> cases hescape : needsEscape c <;>
      cases hblank : startsWithBlank rest <;> simp [readFor, hwidth, spoiled, hescape, hblank]
  · simp [readFor, hwidth]

theorem readFor_char (h : needsEscape c = false) :
    readFor indent isFirst (c :: rest) = c :: readFor indent false rest := by
  simp [readFor_cons, h]

/-- Wherever the lines of the text end, this is what is read of it. -/
def IsReadBack (indent : Nat) (tail cs : List Char) : Prop :=
  ∀ isFirst afterEscape column, indent ≤ column →
    readDouble (escaped indent isFirst afterEscape column cs ++ '"' :: tail) =
      .ok (readFor indent isFirst cs, tail)

theorem map_prepend_ok (text read after : List Char) :
    (Except.ok (read, after) : Except Error (List Char × List Char)).map (prepend text) =
      .ok (text ++ read, after) := rfl

theorem IsReadBack.behind_backslash (h : IsReadBack indent tail rest) (hindent : 0 < indent) :
    readDouble ('\\' :: (escaped indent false true (indent + 1) (' ' :: rest) ++ '"' :: tail)) =
      .ok (if width ≤ indent ∧ rest ≠ [] then '\\' :: ' ' :: ' ' :: readFor indent false rest
        else ' ' :: readFor indent false rest, tail) := by
  have hsplits : splits false (indent + 1) rest = true ↔ width ≤ indent ∧ rest ≠ [] := by
    simp [splits, and_comm]
  rw [escaped_char rfl]
  simp only [decide_true, Bool.true_or, Bool.and_true, hsplits]
  split
  · have hbackslash (cs : List Char) : readEscape ('\\' :: cs) = .ok (['\\'], cs) := rfl
    rw [escapedBreak_space]
    simp only [List.cons_append, List.append_assoc, List.nil_append]
    rw [readDouble_escape (hbackslash _)]
    have hline := takesGaps_readDouble.lines 0 hindent (c := '\\') rfl
      (' ' :: (escaped indent false false (breakWidth indent (' ' :: rest) + 1) rest ++
        '"' :: tail))
    rw [List.replicate_zero, List.nil_append] at hline
    rw [newLine, List.cons_append, hline, readDouble_space, h, map_prepend_ok, map_prepend_ok,
      map_prepend_ok]
    · rfl
    · simp [breakWidth]
      omega
  · rw [List.cons_append, readDouble_space, h _ _ _ (by omega), map_prepend_ok]
    rfl

theorem breakWidth_ge : indent ≤ breakWidth indent rest := by
  unfold breakWidth
  split <;> omega

theorem IsReadBack.lineEnd (h : IsReadBack indent tail rest)
    (htail : IsReadBack indent tail rest.tail) (hindent : 0 < indent) (hne : rest ≠ []) :
    readDouble (escapedBreak indent rest ++
        (escaped indent false true (breakWidth indent rest) rest ++ '"' :: tail)) =
      .ok (if width ≤ indent ∧ startsWithBlank rest = true then
          '\\' :: ' ' :: readFor indent false rest
        else readFor indent false rest, tail) := by
  obtain ⟨c, cs, rfl⟩ := List.exists_cons_of_ne_nil hne
  by_cases hc : c = ' '
  · subst hc
    have hblank : startsWithBlank (' ' :: cs) = true ↔ cs ≠ [] := by simp [startsWithBlank]
    have hwidth : breakWidth indent (' ' :: cs) = indent + 1 := rfl
    rw [escapedBreak_space, List.cons_append, List.append_assoc, hwidth]
    rw [List.tail_cons] at htail
    rw [List.singleton_append, readDouble_lineEnd hindent rfl, htail.behind_backslash hindent]
    simp only [hblank, readFor_char (show needsEscape ' ' = false from rfl)]
  · obtain ⟨d, after, hd, heq⟩ :=
      exists_escaped_cons hc false true indent (breakWidth indent (c :: cs)) cs ('"' :: tail)
    have hblank : startsWithBlank (c :: cs) = false := startsWithBlank_of_ne hc cs
    rw [escapedBreak_of_ne hc, List.cons_append, heq, readDouble_lineEnd hindent hd, ← heq,
      h _ _ _ breakWidth_ge, hblank]
    simp

theorem IsReadBack.escape (h : IsReadBack indent tail rest)
    (htail : IsReadBack indent tail rest.tail) (hindent : 0 < indent)
    (hescape : needsEscape c = true) : IsReadBack indent tail (c :: rest) := by
  intro isFirst afterEscape column hcolumn
  rw [escaped_escape hescape]
  split
  · next hsplits =>
      simp only [splits, Bool.and_eq_true, Bool.not_eq_true', List.isEmpty_eq_false_iff] at hsplits
      rw [List.append_assoc, List.append_assoc, readDouble_escapeText,
        h.lineEnd htail hindent hsplits.1.2, map_prepend_ok, readFor_cons]
      simp only [hsplits.1.1, hescape, true_and]
      split <;> rfl
  · next hsplits =>
      have hkeeps : ¬(width ≤ indent ∧ isFirst = false ∧ needsEscape c = true ∧
          startsWithBlank rest = true) := by
        rintro ⟨hwidth, hfirst, -, hblank⟩
        apply hsplits
        have hrest : rest ≠ [] := by
          rintro rfl
          cases hblank
        have hlength := two_le_length_escapeText c
        have hlong : width < column + (escapeText c).length - 1 := by omega
        simp [splits, hfirst, hrest, hlong]
      rw [readFor_cons, if_neg hkeeps, List.append_assoc, readDouble_escapeText,
        h _ _ _ (by omega), map_prepend_ok]
      rfl

theorem IsReadBack.char (h : IsReadBack indent tail rest) (hindent : 0 < indent)
    (hchar : needsEscape c = false) : IsReadBack indent tail (c :: rest) := by
  intro isFirst afterEscape column hcolumn
  rw [escaped_char hchar, readFor_char hchar]
  split
  · have hrest := h false false (breakWidth indent (c :: rest) + 1)
      (Nat.le_succ_of_le breakWidth_ge)
    by_cases hc : c = ' '
    · subst hc
      rw [escapedBreak_space, List.append_assoc, List.cons_append, List.append_assoc,
        List.singleton_append, readDouble_lineEnd hindent rfl, List.cons_append, readDouble_space,
        hrest, map_prepend_ok]
      rfl
    · have hgap := isGap_of_needsEscape hchar hc
      rw [escapedBreak_of_ne hc, List.append_assoc, List.cons_append, List.cons_append,
        readDouble_lineEnd hindent hgap, readDouble_char hgap hchar, hrest, map_prepend_ok]
      rfl
  · have hrest := h false false (column + 1) (Nat.le_succ_of_le hcolumn)
    rw [List.cons_append]
    by_cases hc : c = ' '
    · subst hc
      rw [takesGaps_readDouble.space (keepsBlanks_escaped _ _ _ _ _), hrest, map_prepend_ok]
      rfl
    · rw [readDouble_char (isGap_of_needsEscape hchar hc) hchar, hrest, map_prepend_ok]
      rfl

/-- Text in double quotes is read as it is, but for blanks behind escapes where no width is
left. -/
theorem isReadBack (hindent : 0 < indent) (tail cs : List Char) : IsReadBack indent tail cs := by
  -- A line that ends before a blank takes the blank with it, so the rest of the rest counts too.
  have hboth : IsReadBack indent tail cs ∧ IsReadBack indent tail cs.tail := by
    induction cs with
    | nil =>
        have hnil : IsReadBack indent tail [] := by
          intro isFirst afterEscape column _
          rw [escaped, List.nil_append, readDouble_end, readFor, spoiled, ite_self]
        exact ⟨hnil, hnil⟩
    | cons c rest ih =>
        refine ⟨?_, ih.1⟩
        cases hescape : needsEscape c with
        | true => exact ih.1.escape ih.2 hindent hescape
        | false => exact ih.1.char hindent hescape
  exact hboth.1

end

end ApneaScoring.Yaml
