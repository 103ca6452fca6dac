import ApneaScoring.Number.Decimal
import ApneaScoring.Number.Shortest
import ApneaScoring.Proofs.Number.Order
import Mathlib.Data.Nat.Digits.Lemmas

/-! The digits that are written of a number round to it, whichever of them are found first: a
coefficient is taken because it reads back, and with all the digits it is exact. -/

namespace ApneaScoring

open Text

theorem nearestEven_mul_mul {factor : Nat} (hfactor : 0 < factor) (num den : Nat) :
    nearestEven (factor * num) (factor * den) = nearestEven num den := by
  unfold nearestEven
  have hlt (a b : Nat) : 2 * (factor * a) < factor * b ↔ 2 * a < b := by
    rw [Nat.mul_left_comm, Nat.mul_lt_mul_left hfactor]
  have hgt (a b : Nat) : factor * b < 2 * (factor * a) ↔ b < 2 * a := by
    rw [Nat.mul_left_comm, Nat.mul_lt_mul_left hfactor]
  simp only [Nat.mul_div_mul_left _ _ hfactor, Nat.mul_mod_mul_left, hlt, hgt]

theorem roundUnits_mul_mul {factor : Nat} (hfactor : 0 < factor) (num den : Nat) :
    roundUnits (factor * num) (factor * den) = roundUnits num den := by
  unfold roundUnits
  rw [Nat.mul_div_mul_left _ _ hfactor]
  dsimp only
  rw [Nat.mul_assoc, nearestEven_mul_mul hfactor]

theorem roundUnits_congr {num den num' den' : Nat} (hden : 0 < den) (hden' : 0 < den')
    (h : num * den' = num' * den) : roundUnits num den = roundUnits num' den' := by
  calc
    roundUnits num den = roundUnits (den' * num) (den' * den) :=
      (roundUnits_mul_mul hden' num den).symm
    _ = roundUnits (den * num') (den * den') := by
      rw [Nat.mul_comm den' num, h, Nat.mul_comm num', Nat.mul_comm den']
    _ = roundUnits num' den' := roundUnits_mul_mul hden num' den'

namespace Binary64

theorem ofRatio_congr (negative : Bool) {num den num' den' : Nat} (hden : 0 < den)
    (hden' : 0 < den') (h : num * den' = num' * den) :
    ofRatio negative num den = ofRatio negative num' den' := by
  unfold ofRatio
  rw [roundUnits_congr hden hden']
  rw [Nat.mul_right_comm, h, Nat.mul_right_comm]

theorem unitsBound_le_roundUnits {units : Nat} (h : unitsBound ≤ units) :
    unitsBound ≤ roundUnits units 1 := by
  have hmono := roundUnits_mono 1 h
  rwa [roundUnits_one_of_short shortSignificand_unitsBound] at hmono

/-- The exponents, kept apart from their powers, which are not to be evaluated. -/
theorem exists_exponents : ∃ one five bound, unitsPerOne = Nat.pow 2 one ∧
    decimalUnit = Nat.pow 5 five ∧ unitsBound = Nat.pow 2 bound ∧
    one = 1074 ∧ five = 1074 ∧ bound = 2098 := by
  unfold unitsPerOne decimalUnit unitsBound
  exact ⟨_, _, _, rfl, rfl, rfl, rfl, rfl, rfl⟩

theorem two_pow_le_ten_pow (k : Nat) : 2 ^ (93 * k) ≤ 10 ^ (28 * k) := by
  rw [Nat.pow_mul, Nat.pow_mul]
  exact Nat.pow_le_pow_left (by decide) k

theorem unitsBound_le_of_large {e : Nat} (h : 310 < e) : unitsBound ≤ 10 ^ e * unitsPerOne := by
  obtain ⟨one, -, bound, honeEq, -, hboundEq, hone, -, hbound⟩ := exists_exponents
  obtain ⟨k, hk⟩ : ∃ k, k = 11 := ⟨11, rfl⟩
  have hsplit : bound = 93 * k + 1 + one := by omega
  calc
    unitsBound = 2 ^ (93 * k) * 2 * unitsPerOne := by
      rw [hboundEq, hsplit, honeEq, Nat.pow_eq, Nat.pow_eq, Nat.pow_add, Nat.pow_succ]
    _ ≤ 10 ^ (28 * k) * 10 * unitsPerOne :=
      Nat.mul_le_mul_right _ (Nat.mul_le_mul (two_pow_le_ten_pow k) (by decide))
    _ ≤ 10 ^ e * unitsPerOne := by
      rw [← Nat.pow_succ]
      exact Nat.mul_le_mul_right _ (Nat.pow_le_pow_right (by decide) (by omega))

theorem ofRatio_of_large (negative : Bool) {num e : Nat} (hnum : 0 < num) (h : 310 < e) :
    ofRatio negative (num * 10 ^ e) 1 = .infinite negative := by
  have hbound : unitsBound ≤ num * 10 ^ e * unitsPerOne := by
    refine (unitsBound_le_of_large h).trans (Nat.mul_le_mul_right _ ?_)
    exact Nat.le_mul_of_pos_left _ hnum
  unfold ofRatio ofUnits
  rw [dif_neg]
  intro hrepresentable
  exact absurd hrepresentable.1 (Nat.not_lt.mpr (unitsBound_le_roundUnits hbound))

theorem roundUnits_eq_zero {num den : Nat} (h : 2 * num < den) : roundUnits num den = 0 := by
  have hdiv : num / den = 0 := Nat.div_eq_of_lt (by omega)
  have hspacing : spacing 0 = 1 := rfl
  have hmod : num % den = num := Nat.mod_eq_of_lt (by omega)
  simp only [roundUnits, hdiv, hspacing, nearestEven, Nat.mul_one, hmod, if_pos h]

theorem ofRatio_of_small (negative : Bool) {num e : Nat} (h : num.log2 + 1080 < 3 * e) :
    ofRatio negative num (10 ^ (e + 1)) = .finite negative 0 representable_zero := by
  obtain ⟨one, -, -, honeEq, -, -, hone, -, -⟩ := exists_exponents
  have hsmall : 2 * (num * unitsPerOne) < 10 ^ (e + 1) := by
    calc
      2 * (num * unitsPerOne) < 2 * (2 ^ (num.log2 + 1) * unitsPerOne) :=
        Nat.mul_lt_mul_of_pos_left (Nat.mul_lt_mul_of_pos_right Nat.lt_log2_self unitsPerOne_pos)
          (by decide)
      _ = 2 ^ (num.log2 + 1 + one + 1) := by
        rw [honeEq, Nat.pow_eq, ← Nat.pow_add, Nat.mul_comm, ← Nat.pow_succ]
      _ ≤ 2 ^ (3 * e) := Nat.pow_le_pow_right (by decide) (by omega)
      _ = 8 ^ e := Nat.pow_mul 2 3 e
      _ ≤ 10 ^ e := Nat.pow_le_pow_left (by decide) e
      _ ≤ 10 ^ (e + 1) := Nat.pow_le_pow_right (by decide) (Nat.le_succ e)
  unfold ofRatio
  rw [roundUnits_eq_zero hsmall, ofUnits, dif_pos representable_zero]

/-- A decimal is rounded as the ratio that it is, also where its exponent alone decides. -/
theorem ofDecimal_eq_ofRatio (negative : Bool) {coefficient : Nat} (h : 0 < coefficient)
    (exponent : Int) : ofDecimal negative coefficient exponent =
      ofRatio negative (coefficient * 10 ^ exponent.toNat) (10 ^ (-exponent).toNat) := by
  unfold ofDecimal
  rw [if_neg (Nat.pos_iff_ne_zero.mp h)]
  cases exponent with
  | ofNat e =>
      change (if 310 < e then _ else ofRatio negative (coefficient * 10 ^ e) 1) =
        ofRatio negative (coefficient * 10 ^ e) (10 ^ (-(e : Int)).toNat)
      rw [Int.toNat_neg_natCast, Nat.pow_zero]
      split
      · next hlarge => exact (ofRatio_of_large negative h hlarge).symm
      · rfl
  | negSucc e =>
      change (if coefficient.log2 + 1080 < 3 * e then _
        else ofRatio negative coefficient (10 ^ (e + 1))) =
          ofRatio negative (coefficient * 10 ^ 0) (10 ^ (e + 1))
      rw [Nat.pow_zero, Nat.mul_one]
      split
      · next hsmall => exact (ofRatio_of_small negative hsmall).symm
      · rfl

theorem natOfDigits_append (xs ys : List Char) :
    natOfDigits (xs ++ ys) = natOfDigits xs * 10 ^ ys.length + natOfDigits ys := by
  have happend := Nat.ofDigitChars_append (b := 10) (l := xs) (m := ys) 0
  rw [Nat.ofDigitChars_eq_ofDigitChars_zero (l := ys), Nat.mul_comm] at happend
  exact happend

theorem natOfDigits_replicate_zero (n : Nat) : natOfDigits (List.replicate n '0') = 0 := by
  have hzeros : Nat.ofDigitChars 10 (List.replicate n '0') 0 = 10 ^ n * 0 :=
    Nat.ofDigitChars_replicate_zero
  rwa [Nat.mul_zero] at hzeros

theorem natOfDigits_toDigits (n : Nat) : natOfDigits (Nat.toDigits 10 n) = n :=
  Nat.ofDigitChars_ten_toDigits

theorem isDigit_of_mem_toDigits {n : Nat} {c : Char} (h : c ∈ Nat.toDigits 10 n) :
    isDigit c = true := by
  have hdigit := Nat.isDigit_of_mem_toDigits (by decide) (by decide) h
  rw [Char.isDigit_iff_toNat] at hdigit
  simpa [isDigit, Char.le_def, UInt32.le_iff_toNat_le] using hdigit

/-- Digits of which the number at its place is rounded to a magnitude. -/
structure Digits.Reads (d : Digits) (units place : Nat) : Prop where
  isDigit : ∀ c ∈ d.digits, isDigit c = true
  ne_nil : d.digits ≠ []
  exponent : d.exponent = (d.digits.length : Int) - 1 + place - 1074
  round : roundUnits (natOfDigits d.digits * 10 ^ place) decimalUnit = units

theorem exists_append_zeros (cs : List Char) :
    ∃ zeros, cs = (cs.reverse.dropWhile (· = '0')).reverse ++ List.replicate zeros '0' := by
  refine ⟨(cs.reverse.takeWhile (· = '0')).length, ?_⟩
  have hzeros : cs.reverse.takeWhile (· = '0') =
      List.replicate (cs.reverse.takeWhile (· = '0')).length '0' := by
    rw [List.eq_replicate_iff]
    refine ⟨rfl, ?_⟩
    intro c hc
    exact of_decide_eq_true (List.all_eq_true.mp List.all_takeWhile c hc)
  rw [← List.reverse_replicate, ← List.reverse_append, ← hzeros, List.takeWhile_append_dropWhile,
    List.reverse_reverse]

theorem exists_reads_ofScaled {coefficient place units : Nat} (hpos : 0 < units)
    (h : roundUnits (coefficient * 10 ^ place) decimalUnit = units) :
    ∃ lowest, (Digits.ofScaled coefficient place).Reads units lowest := by
  have hdigits : (Digits.ofScaled coefficient place).digits =
      ((Nat.toDigits 10 coefficient).reverse.dropWhile (· = '0')).reverse := rfl
  have hexponent : (Digits.ofScaled coefficient place).exponent =
      ((Nat.toDigits 10 coefficient).length : Int) - 1 + place - 1074 := rfl
  obtain ⟨zeros, hzeros⟩ := exists_append_zeros (Nat.toDigits 10 coefficient)
  rw [← hdigits] at hzeros
  have hvalue : natOfDigits (Digits.ofScaled coefficient place).digits * 10 ^ zeros =
      coefficient := by
    have hwhole := natOfDigits_toDigits coefficient
    rwa [hzeros, natOfDigits_append, natOfDigits_replicate_zero, List.length_replicate,
      Nat.add_zero] at hwhole
  refine ⟨zeros + place, ?_, ?_, ?_, ?_⟩
  · intro c hc
    apply isDigit_of_mem_toDigits (n := coefficient)
    rw [hzeros]
    exact List.mem_append_left _ hc
  · intro hnil
    have hnone : natOfDigits [] = 0 := rfl
    rw [hnil, hnone, Nat.zero_mul] at hvalue
    rw [← hvalue, Nat.zero_mul, roundUnits_zero] at h
    omega
  · rw [hexponent, hzeros, List.length_append, List.length_replicate]
    push_cast
    ring
  · rw [Nat.pow_add, ← Nat.mul_assoc, hvalue, h]

theorem nearestEven_eq_or (num den : Nat) :
    nearestEven num den = num / den ∨ nearestEven num den = num / den + 1 := by
  have hlow := div_le_nearestEven num den
  have hhigh := nearestEven_le num den
  omega

theorem reads_of_beside? {reads : Nat → Bool} {num den coefficient : Nat}
    (h : beside? reads num den = some coefficient) : reads coefficient = true := by
  unfold beside? at h
  dsimp only at h
  split at h
  · next hbelow habove =>
      rw [← Option.some.inj h]
      rcases nearestEven_eq_or num den with hcase | hcase
      · rw [hcase, hbelow]
      · rw [hcase, habove]
  · next hbelow _ => rw [← Option.some.inj h, hbelow]
  · next _ habove => rw [← Option.some.inj h, habove]
  · cases h

theorem decimalUnit_pos : 0 < decimalUnit := by
  obtain ⟨-, five, -, -, hfive, -, -, -, -⟩ := exists_exponents
  rw [hfive]
  exact Nat.pow_pos (by decide)

theorem exists_reads_shortestDigits {units : Nat} (h : Representable units) (hpos : 0 < units) :
    ∃ lowest, (shortestDigits units).Reads units lowest := by
  unfold shortestDigits
  dsimp only
  cases hfound : List.findSome? _ (List.range 17) with
  | none =>
      apply exists_reads_ofScaled hpos
      rw [Nat.pow_zero, Nat.mul_one]
      exact roundUnits_mul_right (representable_iff.mp h).2 decimalUnit_pos
  | some d =>
      obtain ⟨n, -, hn⟩ := List.exists_of_findSome?_eq_some hfound
      obtain ⟨coefficient, hcoefficient, rfl⟩ := Option.map_eq_some_iff.mp hn
      have hread := reads_of_beside? hcoefficient
      rw [readsBack, beq_iff_eq] at hread
      exact exists_reads_ofScaled hpos hread

/-- However many zeros are written after the digits, the number is read that they were made
from. -/
theorem Digits.Reads.ofDecimal {d : Digits} {units place : Nat} (hreads : d.Reads units place)
    (h : Representable units) (hpos : 0 < units) (negative : Bool) {coefficient zeros : Nat}
    {exponent : Int} (hcoefficient : coefficient = natOfDigits d.digits * 10 ^ zeros)
    (hexponent : exponent = d.exponent + 1 - d.digits.length - zeros) :
    Binary64.ofDecimal negative coefficient exponent = .finite negative units h := by
  obtain ⟨-, -, hplace, hround⟩ := hreads
  obtain ⟨one, five, -, honeEq, hfiveEq, -, hone, hfive, -⟩ := exists_exponents
  have hdigits : 0 < natOfDigits d.digits := by
    rw [Nat.pos_iff_ne_zero]
    intro hzero
    rw [hzero, Nat.zero_mul, roundUnits_zero] at hround
    omega
  have hten : decimalUnit * unitsPerOne = 10 ^ one := by
    rw [honeEq, hfiveEq, hfive.trans hone.symm, Nat.pow_eq, Nat.pow_eq, ← Nat.mul_pow]
  have hratio : ofRatio negative (coefficient * 10 ^ exponent.toNat) (10 ^ (-exponent).toNat) =
      ofRatio negative (natOfDigits d.digits * 10 ^ place) (10 ^ one) := by
    apply ofRatio_congr
    · exact Nat.pow_pos (by decide)
    · exact Nat.pow_pos (by decide)
    · have hpower : zeros + (exponent.toNat + one) = place + (-exponent).toNat := by omega
      rw [hcoefficient, Nat.mul_assoc, Nat.mul_assoc, Nat.mul_assoc, ← Nat.pow_add,
        ← Nat.pow_add, ← Nat.pow_add, hpower]
  have hpositive : 0 < coefficient := by
    rw [hcoefficient]
    exact Nat.mul_pos hdigits (Nat.pow_pos (by decide))
  rw [ofDecimal_eq_ofRatio negative hpositive, hratio, ofRatio, ← hten, Nat.mul_comm _ unitsPerOne,
    Nat.mul_comm _ unitsPerOne, roundUnits_mul_mul unitsPerOne_pos, hround, ofUnits, dif_pos h]

end Binary64

end ApneaScoring
