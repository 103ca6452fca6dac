import ApneaScoring.Proofs.Yaml.Scalars

namespace ApneaScoring.Yaml

def isWritten (c : Char) : Bool :=
  c = '\n' || isPlainAscii c

theorem isWritten_of_isPlainAscii {c : Char} (h : isPlainAscii c = true) : isWritten c = true := by
  simp [isWritten, h]

theorem isWritten_spaces (n : Nat) : ∀ c ∈ spaces n, isWritten c = true := by
  intro c hc
  rw [(List.mem_replicate.mp hc).2]
  rfl

theorem isWritten_newLine (indent : Nat) : ∀ c ∈ newLine indent, isWritten c = true := by
  rw [newLine, List.forall_mem_cons]
  exact ⟨rfl, isWritten_spaces indent⟩

theorem isWritten_folded {cs : List Char} (h : ∀ c ∈ cs, isWritten c = true)
    (indent column : Nat) (previous : Char) :
    ∀ c ∈ folded indent previous column cs, isWritten c = true := by
  induction cs generalizing previous column with
  | nil => simp [folded]
  | cons d cs ih =>
      rw [List.forall_mem_cons] at h
      have hbreaks : ∀ c ∈ if previous = '\n' then ['\n'] else ['\n', '\n'],
          isWritten c = true := by
        intro c hc
        split at hc <;> simp at hc <;> rw [hc] <;> rfl
      simp only [folded]
      split
      · split
        · simp only [List.forall_mem_append]
          exact ⟨hbreaks, ih h.2 _ _⟩
        · simp only [List.forall_mem_append]
          exact ⟨⟨hbreaks, isWritten_spaces indent⟩, ih h.2 _ _⟩
      · split
        · rw [List.forall_mem_append]
          exact ⟨isWritten_newLine indent, ih h.2 _ _⟩
        · rw [List.forall_mem_cons]
          exact ⟨h.1, ih h.2 _ _⟩

theorem isWritten_escapeText (c : Char) : ∀ d ∈ escapeText c, isWritten d = true := by
  have hhex (letter : Char) (hletter : isWritten letter = true) (width : Nat) :
      ∀ d ∈ '\\' :: letter :: upperHex width c.toNat, isWritten d = true := by
    simp only [List.forall_mem_cons]
    exact ⟨rfl, hletter, fun d hd => isWritten_of_isPlainAscii (isHexDigit_of_mem_upperHex hd).2⟩
  unfold escapeText
  split
  · next letter e heq =>
      have hall : ∀ entry ∈ escapes, isWritten entry.1 = true := by decide
      simp only [List.forall_mem_cons]
      exact ⟨rfl, hall _ (List.mem_of_find?_eq_some heq), by simp⟩
  · dsimp only
    split
    · exact hhex 'x' rfl 2
    · split
      · exact hhex 'u' rfl 4
      · exact hhex 'U' rfl 8

theorem isWritten_escaped (indent column : Nat) (isFirst afterEscape : Bool) (cs : List Char) :
    ∀ c ∈ escaped indent isFirst afterEscape column cs, isWritten c = true := by
  have hbreak (rest : List Char) : ∀ c ∈ escapedBreak indent rest, isWritten c = true := by
    rw [escapedBreak, List.forall_mem_append, List.forall_mem_cons]
    refine ⟨⟨rfl, isWritten_newLine indent⟩, ?_⟩
    split <;> simp [isWritten, isPlainAscii]
  induction cs generalizing column isFirst afterEscape with
  | nil => simp [escaped]
  | cons d cs ih =>
      cases hescape : needsEscape d with
      | true =>
          rw [escaped_escape hescape]
          split
          · simp only [List.forall_mem_append]
            exact ⟨isWritten_escapeText d, hbreak cs, ih _ _ _⟩
          · rw [List.forall_mem_append]
            exact ⟨isWritten_escapeText d, ih _ _ _⟩
      | false =>
          have hd : isWritten d = true := by
            simp only [needsEscape, Bool.or_eq_false_iff, Bool.not_eq_false'] at hescape
            exact isWritten_of_isPlainAscii hescape.2
          rw [escaped_char hescape]
          split
          · simp only [List.forall_mem_append, List.forall_mem_cons]
            exact ⟨hbreak _, hd, ih _ _ _⟩
          · rw [List.forall_mem_cons]
            exact ⟨hd, ih _ _ _⟩

theorem isWritten_writeText (indent column : Nat) (cs : List Char) :
    ∀ c ∈ writeText indent column cs, isWritten c = true := by
  unfold writeText
  split
  · next hplain =>
      simp only [isPlain, Bool.and_eq_true] at hplain
      have hline := fitsLine_of_fitsPlain hplain.2
      exact isWritten_folded (fun c hc => isWritten_of_isPlainAscii (hline.mem c hc)) _ _ _
  · split
    · next hsingle =>
        have hfits := (fitsSingle_iff cs).mp hsingle
        have hdoubled : ∀ c ∈ doubledQuotes cs, isWritten c = true := by
          intro c hc
          obtain ⟨d, hd, hmem⟩ := List.mem_flatMap.mp hc
          have hwritten : isWritten d = true := by
            simpa [isWritten] using hfits.mem d hd
          split at hmem
          · simp only [List.mem_cons, List.not_mem_nil, or_false, or_self] at hmem
            rw [hmem]
            rfl
          · rwa [List.mem_singleton.mp hmem]
        rw [writeSingle, List.forall_mem_append, List.forall_mem_cons]
        exact ⟨⟨rfl, isWritten_folded hdoubled _ _ _⟩, by simp [isWritten, isPlainAscii]⟩
    · rw [writeDouble, List.forall_mem_append, List.forall_mem_cons]
      exact ⟨⟨rfl, isWritten_escaped _ _ _ _ _⟩, by simp [isWritten, isPlainAscii]⟩

theorem unifyBreaks_eq_self {cs : List Char} (h : ∀ c ∈ cs, isWritten c = true) :
    unifyBreaks cs = cs := by
  induction cs with
  | nil => rfl
  | cons c cs ih =>
      rw [List.forall_mem_cons] at h
      have hreturn : c ≠ '\r' := by
        rintro rfl
        cases h.1
      have hnext : c ≠ '\u0085' := by
        rintro rfl
        cases h.1
      rw [unifyBreaks, ih h.2]
      · simp [hreturn, hnext]
      · rintro rest rfl
        exact absurd rfl hreturn

theorem isAllowed_of_isWritten {c : Char} (h : isWritten c = true) : isAllowed c = true := by
  simp only [isWritten, Bool.or_eq_true, decide_eq_true_eq] at h
  rcases h with rfl | hascii
  · rfl
  · have hbounds : 32 ≤ c.toNat ∧ c.toNat ≤ 126 := by
      simpa [isPlainAscii, Char.le_def, UInt32.le_iff_toNat_le] using hascii
    simp [isAllowed, hbounds]

end ApneaScoring.Yaml
