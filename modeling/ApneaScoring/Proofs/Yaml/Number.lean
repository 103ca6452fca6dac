import ApneaScoring.Proofs.Number.Notation
import ApneaScoring.Yaml.Document

namespace ApneaScoring

open Text Binary64

namespace Binary64.Digits

/-- A numeral that stands for the digits at their place. -/
structure IsNumeral (d : Digits) (n : Numeral) : Prop where
  isProper : n.IsProper
  value : ∃ zeros : Nat, n.coefficient = natOfDigits d.digits * 10 ^ zeros ∧
    n.scale = d.exponent + 1 - d.digits.length - zeros

theorem natOfDigits_padLeft (width : Nat) (digits : List Char) :
    natOfDigits (padLeft width digits) = natOfDigits digits := by
  rw [padLeft, natOfDigits_append, natOfDigits_replicate_zero, Nat.zero_mul, Nat.zero_add]

theorem isDigit_of_mem_replicate_zero {n : Nat} {c : Char} (h : c ∈ List.replicate n '0') :
    isDigit c = true := by
  rw [(List.mem_replicate.mp h).2]
  decide

theorem isDigit_of_mem_padLeft {width n : Nat} {c : Char}
    (h : c ∈ padLeft width (Nat.toDigits 10 n)) : isDigit c = true := by
  rcases List.mem_append.mp h with hc | hc
  · exact isDigit_of_mem_replicate_zero hc
  · exact isDigit_of_mem_toDigits hc

def exponentOf (e : Int) : Bool × List Char :=
  (decide (e < 0), padLeft 2 (Nat.toDigits 10 e.natAbs))

theorem writtenExponent_exponentOf {n : Numeral} {e : Int} (h : n.exponent = some (exponentOf e)) :
    n.writtenExponent = e := by
  unfold Numeral.writtenExponent
  rw [h]
  simp only [exponentOf, natOfDigits_padLeft, natOfDigits_toDigits, decide_eq_true_eq]
  split <;> omega

theorem exponentChars_exponentOf {n : Numeral} {e : Int} (h : n.exponent = some (exponentOf e)) :
    n.exponentChars = 'e' :: exponentText e := by
  unfold Numeral.exponentChars
  rw [h]
  simp [exponentOf, exponentText]

theorem isProper_of_isDigit {n : Numeral} (hwhole : n.whole ≠ []) (hfraction : n.fraction ≠ [])
    (hdigits : ∀ c ∈ n.whole ++ n.fraction, isDigit c = true)
    (hexponent : ∀ x ∈ n.exponent, ∃ e, x = exponentOf e) : n.IsProper where
  whole_ne_nil := hwhole
  fraction_ne_nil := hfraction
  isDigit_whole c hc := hdigits c (List.mem_append_left _ hc)
  isDigit_fraction c hc := hdigits c (List.mem_append_right _ hc)
  exponent negative digits h := by
    obtain ⟨e, he⟩ := hexponent _ h
    obtain ⟨-, rfl⟩ := Prod.mk.inj he
    exact ⟨by simp [padLeft, Nat.toDigits_ne_nil], fun c hc => isDigit_of_mem_padLeft hc⟩

end Binary64.Digits

namespace Yaml

open Binary64.Digits

variable {d : Digits}

theorem pointBeforeExponent_of_mem {cs : List Char} (h : '.' ∈ cs) :
    pointBeforeExponent cs = cs := by
  unfold pointBeforeExponent
  rw [if_pos (List.contains_iff_mem.mpr h)]

theorem pointBeforeExponent_minus (cs : List Char) :
    pointBeforeExponent ('-' :: cs) = '-' :: pointBeforeExponent cs := by
  unfold pointBeforeExponent
  by_cases h : '.' ∈ cs
  · simp [h]
  · have hspan := List.span_eq_takeWhile_dropWhile (p := (· != 'e')) (l := cs)
    simp only [List.contains_cons, List.span_eq_takeWhile_dropWhile, List.takeWhile_cons,
      List.dropWhile_cons]
    simp [h]
    split <;> rfl

theorem not_mem_exponentText (e : Int) : '.' ∉ exponentText e := by
  intro h
  rcases List.mem_cons.mp h with heq | hc
  · split at heq <;> exact absurd heq (by decide)
  · exact absurd (isDigit_of_mem_padLeft hc) (by decide)

theorem pointBeforeExponent_digit {c : Char} (h : isDigit c = true) (e : Int) :
    pointBeforeExponent (c :: 'e' :: exponentText e) =
      c :: '.' :: '0' :: 'e' :: exponentText e := by
  have hpoint : c ≠ '.' := (startsWith_of_isDigit h).2.2.1
  have hmark : c ≠ 'e' := by
    rintro rfl
    exact absurd h (by decide)
  unfold pointBeforeExponent
  have hnone : (c :: 'e' :: exponentText e).contains '.' = false := by
    simp [Ne.symm hpoint, not_mem_exponentText]
  rw [hnone]
  simp [List.span_eq_takeWhile_dropWhile, hmark]

theorem exists_numeral_scientific (hne : d.digits ≠ [])
    (hdigits : ∀ c ∈ d.digits, isDigit c = true) :
    ∃ n, d.IsNumeral n ∧ pointBeforeExponent d.scientific = n.chars := by
  obtain ⟨c, rest, hcons⟩ := List.exists_cons_of_ne_nil hne
  have hscientific : d.scientific = pointed [c] rest ++ 'e' :: exponentText d.exponent := by
    rw [scientific, hcons]
    rfl
  rw [hcons, List.forall_mem_cons] at hdigits
  cases rest with
  | nil =>
      let n : Numeral := ⟨[c], ['0'], some (exponentOf d.exponent)⟩
      have hproper : n.IsProper :=
        isProper_of_isDigit (List.cons_ne_nil _ _) (List.cons_ne_nil _ _)
          (by simpa [n] using ⟨hdigits.1, by decide⟩) (by simp [n])
      refine ⟨n, ⟨hproper, 1, ?_, ?_⟩, ?_⟩
      · rw [hcons]
        exact natOfDigits_append [c] ['0']
      · rw [Numeral.scale, writtenExponent_exponentOf rfl, hcons]
        simp [n]
      · rw [hscientific, Numeral.chars, exponentChars_exponentOf rfl]
        exact pointBeforeExponent_digit hdigits.1 d.exponent
  | cons next rest =>
      let n : Numeral := ⟨[c], next :: rest, some (exponentOf d.exponent)⟩
      have hproper : n.IsProper :=
        isProper_of_isDigit (List.cons_ne_nil _ _) (List.cons_ne_nil _ _)
          (by simpa [n] using hdigits) (by simp [n])
      refine ⟨n, ⟨hproper, 0, ?_, ?_⟩, ?_⟩
      · rw [hcons, Nat.pow_zero, Nat.mul_one]
        rfl
      · rw [Numeral.scale, writtenExponent_exponentOf rfl, hcons]
        simp [n]
      · rw [hscientific, Numeral.chars, exponentChars_exponentOf rfl,
          pointBeforeExponent_of_mem (by simp [pointed])]
        simp [n, pointed]

theorem isDigit_wholeAndFraction (hdigits : ∀ c ∈ d.digits, isDigit c = true) :
    (∀ c ∈ d.wholeAndFraction.1, isDigit c = true) ∧
      ∀ c ∈ d.wholeAndFraction.2, isDigit c = true := by
  unfold wholeAndFraction
  split
  · refine ⟨fun c hc => ?_, fun c hc => hdigits c (List.mem_of_mem_drop hc)⟩
    rcases List.mem_append.mp hc with hc | hc
    · exact hdigits c (List.mem_of_mem_take hc)
    · exact isDigit_of_mem_replicate_zero hc
  · refine ⟨fun c hc => ?_, fun c hc => ?_⟩
    · rw [List.mem_singleton.mp hc]
      decide
    · rcases List.mem_append.mp hc with hc | hc
      · exact isDigit_of_mem_replicate_zero hc
      · exact hdigits c hc

theorem wholeAndFraction_fst_ne_nil (hne : d.digits ≠ []) : d.wholeAndFraction.1 ≠ [] := by
  unfold wholeAndFraction
  split
  · simp [hne]
  · exact List.cons_ne_nil _ _

theorem exists_zeros_of_whole (h : d.wholeAndFraction.2 = []) (hne : d.digits ≠ []) :
    ∃ zeros : Nat, d.wholeAndFraction.1 = d.digits ++ List.replicate zeros '0' ∧
      d.exponent + 1 = d.digits.length + zeros := by
  cases hexponent : d.exponent with
  | ofNat e =>
      simp only [wholeAndFraction, hexponent, List.drop_eq_nil_iff] at h
      refine ⟨e + 1 - d.digits.length, ?_, ?_⟩
      · simp only [wholeAndFraction, hexponent, List.take_of_length_le h]
      · rw [Int.ofNat_eq_natCast]
        omega
  | negSucc e => simp [wholeAndFraction, hexponent, hne] at h

theorem natOfDigits_of_fraction (h : d.wholeAndFraction.2 ≠ []) :
    natOfDigits (d.wholeAndFraction.1 ++ d.wholeAndFraction.2) = natOfDigits d.digits ∧
      d.exponent + 1 = d.digits.length - d.wholeAndFraction.2.length := by
  cases hexponent : d.exponent with
  | ofNat e =>
      have hlength : e + 1 < d.digits.length := by
        simpa [wholeAndFraction, hexponent] using h
      have hnone : e + 1 - d.digits.length = 0 := by omega
      refine ⟨?_, ?_⟩
      · simp only [wholeAndFraction, hexponent, hnone, List.replicate_zero, List.append_nil,
          List.take_append_drop]
      · simp only [wholeAndFraction, hexponent, List.length_drop]
        rw [Int.ofNat_eq_natCast]
        omega
  | negSucc e =>
      refine ⟨?_, ?_⟩
      · simp only [wholeAndFraction, hexponent]
        rw [natOfDigits_append, natOfDigits_append, natOfDigits_replicate_zero]
        simp [natOfDigits]
      · simp only [wholeAndFraction, hexponent, List.length_append, List.length_replicate]
        rw [Int.negSucc_eq]
        push_cast
        ring

theorem exists_numeral_positional (hne : d.digits ≠ [])
    (hdigits : ∀ c ∈ d.digits, isDigit c = true) :
    ∃ n, d.IsNumeral n ∧ pointed d.wholeAndFraction.1
      (if d.wholeAndFraction.2.isEmpty then ['0'] else d.wholeAndFraction.2) = n.chars := by
  obtain ⟨hwhole, hfraction⟩ := isDigit_wholeAndFraction hdigits
  have hwholeNe := wholeAndFraction_fst_ne_nil hne
  by_cases hempty : d.wholeAndFraction.2 = []
  · obtain ⟨zeros, hzeros, hexponent⟩ := exists_zeros_of_whole hempty hne
    have hproper : (⟨d.wholeAndFraction.1, ['0'], none⟩ : Numeral).IsProper :=
      isProper_of_isDigit hwholeNe (List.cons_ne_nil _ _)
        (by simpa [or_imp, forall_and] using ⟨hwhole, by decide⟩) (by simp)
    refine ⟨_, ⟨hproper, zeros + 1, ?_, ?_⟩, ?_⟩
    · rw [Numeral.coefficient, hzeros, natOfDigits_append, natOfDigits_append,
        natOfDigits_replicate_zero]
      simp [natOfDigits, Nat.pow_succ, Nat.mul_assoc]
    · simp [Numeral.scale, Numeral.writtenExponent]
      omega
    · simp [hempty, pointed, Numeral.chars, Numeral.exponentChars]
  · obtain ⟨hvalue, hexponent⟩ := natOfDigits_of_fraction hempty
    have hproper : (⟨d.wholeAndFraction.1, d.wholeAndFraction.2, none⟩ : Numeral).IsProper :=
      isProper_of_isDigit hwholeNe hempty
        (by simpa [or_imp, forall_and] using ⟨hwhole, hfraction⟩) (by simp)
    refine ⟨_, ⟨hproper, 0, ?_, ?_⟩, ?_⟩
    · rw [Numeral.coefficient, hvalue, Nat.pow_zero, Nat.mul_one]
    · simp [Numeral.scale, Numeral.writtenExponent]
      omega
    · simp [hempty, pointed, Numeral.chars, Numeral.exponentChars]

theorem toList_written (d : Digits) : (d.written .full).toList =
    if d.exponent < -4 || Style.full.ceiling ≤ d.exponent then d.scientific
    else pointed d.wholeAndFraction.1
      (if d.wholeAndFraction.2.isEmpty then ['0'] else d.wholeAndFraction.2) := by
  rw [Digits.written, String.toList_ofList, Style.full]
  simp only [Bool.and_true]

theorem exists_numeral_written (hne : d.digits ≠ [])
    (hdigits : ∀ c ∈ d.digits, isDigit c = true) :
    ∃ n, d.IsNumeral n ∧ pointBeforeExponent (d.written .full).toList = n.chars := by
  rw [toList_written]
  split
  · exact exists_numeral_scientific hne hdigits
  · obtain ⟨n, hn, hchars⟩ := exists_numeral_positional hne hdigits
    refine ⟨n, hn, ?_⟩
    rw [hchars]
    exact pointBeforeExponent_of_mem (by simp [Numeral.chars])

def signChars (negative : Bool) : List Char :=
  if negative then ['-'] else []

theorem isNumeralChar_signed (negative : Bool) {n : Numeral} (h : n.IsProper) :
    ∀ c ∈ signChars negative ++ n.chars, isNumeralChar c = true := by
  intro c hc
  rcases List.mem_append.mp hc with hc | hc
  · cases negative with
    | true =>
        rw [List.mem_singleton.mp hc]
        decide
    | false => cases hc
  · exact h.isNumeralChar c hc

/-- The sign is written before all else, so the point is put into what follows it. -/
theorem floatText_finite (negative : Bool) {units : Nat} (h : Representable units) :
    floatText (.finite negative units h) = signChars negative ++ pointBeforeExponent
      (if units = 0 then zeroText .full else (shortestDigits units).written .full).toList := by
  have hsigned (text : String) : pointBeforeExponent (signed negative text).toList =
      signChars negative ++ pointBeforeExponent text.toList := by
    cases negative with
    | true =>
        rw [signed, if_pos rfl, String.toList_append]
        exact pointBeforeExponent_minus text.toList
    | false => rfl
  exact hsigned _

theorem exists_numeral_floatText (negative : Bool) {units : Nat} (h : Representable units) :
    ∃ n : Numeral, n.IsProper ∧
      floatText (.finite negative units h) = signChars negative ++ n.chars ∧
      .ofDecimal false n.coefficient n.scale = Binary64.finite false units h := by
  rw [floatText_finite]
  by_cases hzero : units = 0
  · subst hzero
    refine ⟨⟨['0'], ['0'], none⟩, ?_, rfl, rfl⟩
    apply isProper_of_isDigit <;> simp [isDigit]
  · have hpos : 0 < units := Nat.pos_of_ne_zero hzero
    obtain ⟨place, hreads⟩ := exists_reads_shortestDigits h hpos
    obtain ⟨n, ⟨hproper, zeros, hcoefficient, hscale⟩, hchars⟩ :=
      exists_numeral_written hreads.ne_nil hreads.isDigit
    rw [if_neg hzero, hchars]
    exact ⟨n, hproper, rfl, hreads.ofDecimal h hpos false hcoefficient hscale⟩

theorem isBoolText_cons {c : Char} (h : c ∉ "yYtToOnNfF".toList) (cs : List Char) :
    isBoolText (c :: cs) = false := by
  have hall : ∀ word ∈ trueTexts ++ falseTexts,
      ∀ text ∈ [word.toList, capitalized word.toList, word.toList.map Char.toUpper],
        text.head?.all "yYtToOnNfF".toList.contains = true := by decide
  unfold isBoolText
  rw [List.any_eq_false]
  intro word hword hcased
  refine h (List.contains_iff_mem.mp (hall word hword (c :: cs) ?_))
  simpa [isCased, or_assoc] using hcased

theorem dropSign_signChars (negative : Bool) {n : Numeral} (h : n.IsProper) :
    dropSign (signChars negative ++ n.chars) = n.chars := by
  obtain ⟨c, rest, hwhole, hc⟩ := h.exists_whole
  obtain ⟨hminus, hplus, -⟩ := startsWith_of_isDigit hc
  cases negative with
  | true => rfl
  | false => simp [signChars, Numeral.chars, hwhole, dropSign, isSignOf, hminus, hplus]

theorem isBarred_of_isDigit {c : Char} (h : isDigit c = true) : isBarred c = true := by
  simp [isBarred, h]

theorem isPointed_chars {n : Numeral} (h : n.IsProper) : isPointed n.chars = true := by
  obtain ⟨c, rest, hwhole, hc⟩ := h.exists_whole
  have hstarts : startsWithDigit n.chars = true := by
    simp [Numeral.chars, hwhole, startsWithDigit, hc]
  have hpoint : n.chars.dropWhile isBarred = '.' :: (n.fraction ++ n.exponentChars) := by
    rw [Numeral.chars,
      List.dropWhile_append_of_pos fun c hc => isBarred_of_isDigit (h.isDigit_whole c hc)]
    rfl
  have hfraction : (n.fraction ++ n.exponentChars).dropWhile isBarred =
      n.exponentChars.dropWhile isBarred :=
    List.dropWhile_append_of_pos fun c hc => isBarred_of_isDigit (h.isDigit_fraction c hc)
  unfold isPointed
  rw [hstarts, hpoint]
  simp only [Bool.true_and]
  rw [hfraction]
  unfold Numeral.exponentChars
  split
  · rfl
  · next negative digits heq =>
      obtain ⟨hne, hdigits⟩ := h.exponent negative digits heq
      have hsign : isSignOf (if negative then '-' else '+') = true := by cases negative <;> rfl
      have hmark : isBarred 'e' = false := rfl
      simpa [hmark, isExponent, hsign, hne] using hdigits

/-- A number is written so that it is told from text and from whole numbers. -/
theorem kind_floatText (x : Binary64) : Kind.ofText (floatText x) = .float := by
  cases x with
  | finite negative units h =>
      obtain ⟨n, hproper, htext, -⟩ := exists_numeral_floatText negative h
      obtain ⟨c, rest, hwhole, hc⟩ := hproper.exists_whole
      have hbool : isBoolText (floatText (.finite negative units h)) = false := by
        rw [htext, Numeral.chars, hwhole]
        cases negative with
        | true => exact isBoolText_cons (by decide) _
        | false =>
            have hall : ∀ c ∈ "0123456789".toList, c ∉ "yYtToOnNfF".toList :=
              List.all_iff_forall_prop.mp (by decide)
            exact isBoolText_cons (hall c (mem_digits_of_isDigit hc)) _
      have hfloat : isFloatText (floatText (.finite negative units h)) = true := by
        rw [htext, isFloatText, dropSign_signChars negative hproper, isPointed_chars hproper]
        rfl
      rw [Kind.ofText, hbool, hfloat]
      rfl
  | infinite negative => cases negative <;> decide
  | nan => decide

theorem decimalValue_chars {n : Numeral} (h : n.IsProper) :
    decimalValue n.chars = .ok (.ofDecimal false n.coefficient n.scale) := by
  rw [decimalValue, h.ofText?]

theorem unsignedFloat_chars {n : Numeral} (h : n.IsProper) :
    unsignedFloat n.chars = .ok (.ofDecimal false n.coefficient n.scale) := by
  obtain ⟨c, rest, hwhole, hc⟩ := h.exists_whole
  have hpoint : c ≠ '.' := (startsWith_of_isDigit hc).2.2.1
  have hword (word : List Char) : n.chars ≠ '.' :: word := by
    rw [Numeral.chars, hwhole]
    intro heq
    exact hpoint (List.cons.inj heq).1
  have hcolon : n.chars.contains ':' = false := by
    rw [← Bool.not_eq_true, List.contains_iff_mem]
    intro hmem
    exact (numeralChar_mem (h.isNumeralChar _ hmem)).2.1 rfl
  unfold unsignedFloat
  rw [hcolon, if_neg (by simpa using hword "inf".toList),
    if_neg (by simpa using hword "nan".toList), decimalValue_chars h]
  rfl

/-- Reading a number that is written gives the number back. -/
theorem floatValue_floatText (x : Binary64) : floatValue (floatText x) = .ok x := by
  cases x with
  | finite negative units h =>
      obtain ⟨n, hproper, htext, hvalue⟩ := exists_numeral_floatText negative h
      have hchar := isNumeralChar_signed negative hproper
      have hlower : (withoutBars (floatText (.finite negative units h))).map Char.toLower =
          signChars negative ++ n.chars := by
        rw [htext, withoutBars, List.filter_eq_self.mpr, Numeral.map_eq_self]
        · exact fun c hc => (numeralChar_mem (hchar c hc)).2.2.1
        · exact fun c hc => by simpa using (numeralChar_mem (hchar c hc)).1
      obtain ⟨c, rest, hwhole, hc⟩ := hproper.exists_whole
      have hnegative : isNegative (signChars negative ++ n.chars) = negative := by
        cases negative with
        | true => rfl
        | false => simpa [isNegative, signChars, Numeral.chars, hwhole] using
            (startsWith_of_isDigit hc).1
      have hnonempty : (signChars negative ++ n.chars).isEmpty = false := by
        simp [Numeral.chars]
      unfold floatValue
      rw [hlower]
      simp only [hnonempty, dropSign_signChars negative hproper, unsignedFloat_chars hproper,
        hnegative, hvalue]
      cases negative <;> rfl
  | infinite negative => cases negative <;> decide
  | nan => decide

end Yaml

end ApneaScoring
