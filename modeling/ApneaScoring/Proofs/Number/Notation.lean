import ApneaScoring.Number.Notation
import ApneaScoring.Proofs.Number.Shortest
import Mathlib.Data.Bool.AllAny

namespace ApneaScoring

open Text

namespace Text

theorem mem_digits_of_isDigit {c : Char} (h : isDigit c = true) : c ∈ "0123456789".toList := by
  have hbounds : 48 ≤ c.toNat ∧ c.toNat ≤ 57 := by
    simpa [isDigit, Char.le_def, UInt32.le_iff_toNat_le] using h
  have hchar : c = Char.ofNat c.toNat := (Char.ofNat_toNat c).symm
  obtain ⟨hlow, hhigh⟩ := hbounds
  generalize c.toNat = n at hlow hhigh hchar
  subst hchar
  interval_cases n <;> decide

end Text

def isNumeralChar (c : Char) : Bool :=
  "0123456789.e+-".toList.contains c

theorem isNumeralChar_of_isDigit {c : Char} (h : isDigit c = true) : isNumeralChar c = true := by
  have hall : "0123456789".toList.all isNumeralChar = true := by decide
  exact List.all_eq_true.mp hall c (mem_digits_of_isDigit h)

theorem numeralChar_mem {c : Char} (h : isNumeralChar c = true) :
    c ≠ '_' ∧ c ≠ ':' ∧ c.toLower = c ∧ Binary64.plainDigit c = c ∧
      Binary64.isNumberBlank c = false := by
  have hall : ∀ c ∈ "0123456789.e+-".toList, c ≠ '_' ∧ c ≠ ':' ∧ c.toLower = c ∧
      Binary64.plainDigit c = c ∧ Binary64.isNumberBlank c = false :=
    List.all_iff_forall_prop.mp (by decide)
  exact hall c (List.contains_iff_mem.mp h)

theorem startsWith_of_isDigit {c : Char} (h : isDigit c = true) :
    c ≠ '-' ∧ c ≠ '+' ∧ c ≠ '.' ∧ c ≠ 'i' ∧ c ≠ 'n' := by
  have hall : ∀ c ∈ "0123456789".toList,
      c ≠ '-' ∧ c ≠ '+' ∧ c ≠ '.' ∧ c ≠ 'i' ∧ c ≠ 'n' := List.all_iff_forall_prop.mp (by decide)
  exact hall c (mem_digits_of_isDigit h)

structure Numeral where
  whole : List Char
  fraction : List Char
  exponent : Option (Bool × List Char)

namespace Numeral

def exponentChars (n : Numeral) : List Char :=
  match n.exponent with
  | none => []
  | some (negative, digits) => 'e' :: (if negative then '-' else '+') :: digits

def chars (n : Numeral) : List Char :=
  n.whole ++ '.' :: (n.fraction ++ n.exponentChars)

structure IsProper (n : Numeral) : Prop where
  whole_ne_nil : n.whole ≠ []
  fraction_ne_nil : n.fraction ≠ []
  isDigit_whole : ∀ c ∈ n.whole, isDigit c = true
  isDigit_fraction : ∀ c ∈ n.fraction, isDigit c = true
  exponent : ∀ negative digits, n.exponent = some (negative, digits) →
    digits ≠ [] ∧ ∀ c ∈ digits, isDigit c = true

def coefficient (n : Numeral) : Nat :=
  natOfDigits (n.whole ++ n.fraction)

def writtenExponent (n : Numeral) : Int :=
  match n.exponent with
  | none => 0
  | some (negative, digits) => if negative then -(natOfDigits digits : Int) else natOfDigits digits

def scale (n : Numeral) : Int :=
  n.writtenExponent - n.fraction.length

variable {n : Numeral}

theorem IsProper.exists_whole (h : n.IsProper) :
    ∃ c rest, n.whole = c :: rest ∧ isDigit c = true := by
  obtain ⟨c, rest, hwhole⟩ := List.exists_cons_of_ne_nil h.whole_ne_nil
  exact ⟨c, rest, hwhole, h.isDigit_whole c (by simp [hwhole])⟩

theorem IsProper.isNumeralChar (h : n.IsProper) : ∀ c ∈ n.chars, isNumeralChar c = true := by
  have hexponent : ∀ c ∈ n.exponentChars, ApneaScoring.isNumeralChar c = true := by
    unfold exponentChars
    split
    · simp
    · next negative digits heq =>
        have hdigits := (h.exponent negative digits heq).2
        intro c hc
        rcases List.mem_cons.mp hc with rfl | hc
        · decide
        · rcases List.mem_cons.mp hc with rfl | hc
          · cases negative <;> decide
          · exact isNumeralChar_of_isDigit (hdigits c hc)
  intro c hc
  rcases List.mem_append.mp hc with hc | hc
  · exact isNumeralChar_of_isDigit (h.isDigit_whole c hc)
  · rcases List.mem_cons.mp hc with rfl | hc
    · decide
    · rcases List.mem_append.mp hc with hc | hc
      · exact isNumeralChar_of_isDigit (h.isDigit_fraction c hc)
      · exact hexponent c hc

theorem takeWhile_isDigit_append {digits rest : List Char} (h : ∀ c ∈ digits, isDigit c = true)
    (hrest : ∀ c ∈ rest.head?, isDigit c = false) :
    (digits ++ rest).takeWhile isDigit = digits ∧ (digits ++ rest).dropWhile isDigit = rest := by
  rw [List.takeWhile_append_of_pos h, List.dropWhile_append_of_pos h]
  cases rest with
  | nil => simp
  | cons c rest =>
      have hc := hrest c rfl
      simp [hc]

theorem head?_exponentChars (n : Numeral) : ∀ c ∈ n.exponentChars.head?, isDigit c = false := by
  unfold exponentChars
  split
  · simp
  · rintro c ⟨⟩
    decide

theorem IsProper.splitMantissa (h : n.IsProper) :
    Binary64.splitMantissa n.chars = (n.whole, n.fraction, n.exponentChars) := by
  have hpoint : ∀ c ∈ ('.' :: (n.fraction ++ n.exponentChars)).head?, isDigit c = false := by
    rintro c ⟨⟩
    decide
  obtain ⟨htake, hdrop⟩ := takeWhile_isDigit_append h.isDigit_whole hpoint
  obtain ⟨htake', hdrop'⟩ := takeWhile_isDigit_append h.isDigit_fraction n.head?_exponentChars
  unfold Binary64.splitMantissa chars
  rw [htake, hdrop]
  simp only [htake', hdrop']

theorem IsProper.readExponent? (h : n.IsProper) :
    Binary64.readExponent? n.exponentChars = some n.writtenExponent := by
  unfold exponentChars writtenExponent
  split
  · rfl
  · next negative digits heq =>
      obtain ⟨hne, hdigits⟩ := h.exponent negative digits heq
      have hsign : Binary64.splitSign ((if negative then '-' else '+') :: digits) =
          (negative, digits) := by
        cases negative <;> rfl
      have hempty : digits.isEmpty = false := List.isEmpty_eq_false_iff.mpr hne
      have hall : digits.all isDigit = true := List.all_eq_true.mpr hdigits
      simp [Binary64.readExponent?, hsign, hempty, hall]

theorem IsProper.readDecimal? (h : n.IsProper) (negative : Bool) :
    Binary64.readDecimal? negative n.chars =
      some (.ofDecimal negative n.coefficient n.scale) := by
  have hempty : n.whole.isEmpty = false := List.isEmpty_eq_false_iff.mpr h.whole_ne_nil
  unfold Binary64.readDecimal?
  rw [h.splitMantissa]
  simp only [hempty, Bool.false_and, Bool.false_eq_true, if_false, h.readExponent?,
    Option.map_some]
  rfl

theorem withoutUnderscores?_of_forall {cs : List Char} (h : ∀ c ∈ cs, c ≠ '_')
    (afterDigit : Bool) : Binary64.withoutUnderscores? afterDigit cs = some cs := by
  induction cs generalizing afterDigit with
  | nil => rfl
  | cons c cs ih =>
      rw [List.forall_mem_cons] at h
      have hcons : Binary64.withoutUnderscores? afterDigit (c :: cs) =
          (Binary64.withoutUnderscores? (isDigit c) cs).map (c :: ·) := by
        rw [Binary64.withoutUnderscores?]
        · rintro rfl
          exact absurd rfl h.1
        · rintro d rest rfl
          exact absurd rfl h.1
      rw [hcons, ih h.2]
      rfl

theorem dropWhile_eq_self {p : Char → Bool} {cs : List Char} (h : ∀ c ∈ cs, p c = false) :
    cs.dropWhile p = cs := by
  cases cs with
  | nil => rfl
  | cons c cs => rw [List.dropWhile_cons_of_neg (by simp [h c List.mem_cons_self])]

theorem trimBoth_eq_self {p : Char → Bool} {cs : List Char} (h : ∀ c ∈ cs, p c = false) :
    trimBoth p cs = cs := by
  unfold trimBoth
  rw [dropWhile_eq_self h, dropWhile_eq_self (by simpa using h), List.reverse_reverse]

theorem map_eq_self {f : Char → Char} {cs : List Char} (h : ∀ c ∈ cs, f c = c) :
    cs.map f = cs := by
  rw [List.map_congr_left h]
  exact List.map_id cs

theorem IsProper.readUnsigned? (h : n.IsProper) (negative : Bool) :
    Binary64.readUnsigned? negative n.chars = Binary64.readDecimal? negative n.chars := by
  have hlower : n.chars.map Char.toLower = n.chars :=
    map_eq_self fun c hc => (numeralChar_mem (h.isNumeralChar c hc)).2.2.1
  obtain ⟨c, rest, hwhole, hc⟩ := h.exists_whole
  obtain ⟨-, -, -, hi, hn⟩ := startsWith_of_isDigit hc
  have hword (word : String) (hword : ∀ d ∈ word.toList.head?, c ≠ d) (hne : word.toList ≠ []) :
      String.ofList n.chars ≠ word := by
    rintro rfl
    rw [String.toList_ofList, chars, hwhole] at hword
    exact hword c rfl rfl
  unfold Binary64.readUnsigned?
  rw [hlower]
  split
  · next heq => exact absurd heq (hword "inf" (by simpa using hi) (by simp))
  · next heq => exact absurd heq (hword "infinity" (by simpa using hi) (by simp))
  · next heq => exact absurd heq (hword "nan" (by simpa using hn) (by simp))
  · rfl

theorem IsProper.ofText? (h : n.IsProper) :
    Binary64.ofText? (String.ofList n.chars) = some (.ofDecimal false n.coefficient n.scale) := by
  have hmem : ∀ c ∈ n.chars, _ := fun c hc => numeralChar_mem (h.isNumeralChar c hc)
  obtain ⟨c, rest, hwhole, hc⟩ := h.exists_whole
  obtain ⟨hminus, hplus, -, -, -⟩ := startsWith_of_isDigit hc
  have hsign : Binary64.splitSign n.chars = (false, n.chars) := by
    rw [chars, hwhole, List.cons_append, Binary64.splitSign]
    · rintro _ heq
      exact absurd (List.cons.inj heq).1 hminus
    · rintro _ heq
      exact absurd (List.cons.inj heq).1 hplus
  unfold Binary64.ofText?
  rw [String.toList_ofList, trimBoth_eq_self fun c hc => (hmem c hc).2.2.2.2,
    map_eq_self fun c hc => (hmem c hc).2.2.2.1,
    withoutUnderscores?_of_forall fun c hc => (hmem c hc).1]
  simp only [Option.bind_eq_bind, Option.bind_some, hsign]
  rw [h.readUnsigned?, h.readDecimal?]

end Numeral

end ApneaScoring
