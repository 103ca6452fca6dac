import ApneaScoring.Number.Binary64
import Mathlib.Tactic.Ring
import Mathlib.Tactic.Linarith

namespace ApneaScoring

theorem div_le_nearestEven (num den : Nat) : num / den ≤ nearestEven num den := by
  unfold nearestEven
  dsimp only
  split
  · exact Nat.le_refl _
  · split
    · exact Nat.le_succ _
    · exact Nat.le_add_right _ _

theorem nearestEven_le (num den : Nat) : nearestEven num den ≤ num / den + 1 := by
  unfold nearestEven
  dsimp only
  split
  · exact Nat.le_succ _
  · split
    · exact Nat.le_refl _
    · have hparity := Nat.mod_lt (num / den) (y := 2) (by decide)
      omega

theorem nearestEven_mul_right (quotient : Nat) {den : Nat} (hden : 0 < den) :
    nearestEven (quotient * den) den = quotient := by
  simp [nearestEven, Nat.mul_div_cancel _ hden, hden]

theorem nearestEven_mono {a b : Nat} (den : Nat) (h : a ≤ b) :
    nearestEven a den ≤ nearestEven b den := by
  have hquotient : a / den ≤ b / den := Nat.div_le_div_right h
  rcases Nat.lt_or_eq_of_le hquotient with hlt | heq
  · calc
      nearestEven a den ≤ a / den + 1 := nearestEven_le a den
      _ ≤ b / den := hlt
      _ ≤ nearestEven b den := div_le_nearestEven b den
  · have hmod : a % den ≤ b % den := by
      have ha := Nat.div_add_mod a den
      have hb := Nat.div_add_mod b den
      rw [heq] at ha
      omega
    unfold nearestEven
    dsimp only
    rw [heq]
    split_ifs <;> omega

theorem two_mul_nearestEven_mul_le (num : Nat) {den : Nat} (hden : 0 < den) :
    2 * (nearestEven num den * den) ≤ 2 * num + den := by
  have hdiv := Nat.div_add_mod num den
  have hmod := Nat.mod_lt num hden
  have hparity := Nat.mod_lt (num / den) (y := 2) (by decide)
  unfold nearestEven
  dsimp only
  split
  · rw [Nat.mul_comm (num / den)]
    omega
  · split
    · rw [Nat.add_mul, Nat.mul_comm (num / den)]
      omega
    · have hle : num / den % 2 * den ≤ 1 * den :=
        Nat.mul_le_mul_right den (Nat.le_of_lt_succ hparity)
      rw [Nat.add_mul, Nat.mul_comm (num / den)]
      omega

theorem two_mul_le_nearestEven_mul (num : Nat) {den : Nat} (hden : 0 < den) :
    2 * num ≤ 2 * (nearestEven num den * den) + den := by
  have hdiv := Nat.div_add_mod num den
  have hmod := Nat.mod_lt num hden
  unfold nearestEven
  dsimp only
  split
  · rw [Nat.mul_comm (num / den)]
    omega
  · split
    · rw [Nat.add_mul, Nat.mul_comm (num / den)]
      omega
    · rw [Nat.add_mul, Nat.mul_comm (num / den)]
      omega

/-- At most 53 significant bits, whatever the magnitude. -/
def ShortSignificand (units : Nat) : Prop :=
  ∃ significand exponent, significand ≤ 2 ^ 53 ∧ units = significand * 2 ^ exponent

theorem spacing_pos (magnitude : Nat) : 0 < spacing magnitude :=
  Nat.pow_pos (by decide)

theorem log2_mono {a b : Nat} (h : a ≤ b) : a.log2 ≤ b.log2 := by
  by_cases hzero : a = 0
  · simp [hzero]
  · exact (Nat.le_log2 (by omega)).mpr (Nat.le_trans (Nat.log2_self_le hzero) h)

theorem spacing_mono {a b : Nat} (h : a ≤ b) : spacing a ≤ spacing b := by
  apply Nat.pow_le_pow_right (by decide)
  have hlog := log2_mono h
  omega

theorem lt_mul_spacing (magnitude : Nat) : magnitude < 2 ^ 53 * spacing magnitude := by
  have hlog : magnitude < 2 ^ (magnitude.log2 + 1) := Nat.lt_log2_self
  refine Nat.lt_of_lt_of_le hlog ?_
  change 2 ^ (magnitude.log2 + 1) ≤ 2 ^ 53 * 2 ^ (magnitude.log2 - 52)
  rw [← Nat.pow_add]
  exact Nat.pow_le_pow_right (by decide) (by omega)

theorem mul_spacing_le {magnitude : Nat} (h : 1 < spacing magnitude) :
    2 ^ 52 * spacing magnitude ≤ magnitude := by
  have hlog : 52 < magnitude.log2 := by
    by_contra hle
    have hzero : magnitude.log2 - 52 = 0 := by omega
    have hone : spacing magnitude = 1 := by
      change 2 ^ (magnitude.log2 - 52) = 1
      rw [hzero]
      rfl
    omega
  have hne : magnitude ≠ 0 := by
    rintro rfl
    simp at hlog
  change 2 ^ 52 * 2 ^ (magnitude.log2 - 52) ≤ magnitude
  rw [← Nat.pow_add, show 52 + (magnitude.log2 - 52) = magnitude.log2 by omega]
  exact Nat.log2_self_le hne

theorem shortSignificand_of_dvd {units : Nat} (h : spacing units ∣ units) :
    ShortSignificand units := by
  obtain ⟨significand, hsignificand⟩ := h
  refine ⟨significand, units.log2 - 52, ?_, ?_⟩
  · have hlt := lt_mul_spacing units
    have hle : significand * spacing units ≤ 2 ^ 53 * spacing units := by
      rw [Nat.mul_comm significand, ← hsignificand]
      exact Nat.le_of_lt hlt
    exact Nat.le_of_mul_le_mul_right hle (spacing_pos units)
  · rw [Nat.mul_comm]
    exact hsignificand

theorem ShortSignificand.spacing_dvd {units : Nat} (h : ShortSignificand units) :
    spacing units ∣ units := by
  obtain ⟨significand, exponent, hle, rfl⟩ := h
  change 2 ^ ((significand * 2 ^ exponent).log2 - 52) ∣ significand * 2 ^ exponent
  rcases Nat.lt_or_eq_of_le hle with hlt | rfl
  · apply Nat.dvd_mul_left_of_dvd
    apply Nat.pow_dvd_pow
    by_cases hzero : significand * 2 ^ exponent = 0
    · simp [hzero]
    · have hlog : (significand * 2 ^ exponent).log2 < 53 + exponent := by
        rw [Nat.log2_lt hzero, Nat.pow_add]
        exact Nat.mul_lt_mul_of_pos_right hlt (Nat.pow_pos (by decide))
      omega
  · rw [← Nat.pow_add]
    apply Nat.pow_dvd_pow
    rw [Nat.log2_two_pow]
    omega

theorem representable_iff {units : Nat} :
    Representable units ↔ units < unitsBound ∧ ShortSignificand units := by
  constructor
  · intro h
    exact ⟨h.1, shortSignificand_of_dvd (Nat.dvd_of_mod_eq_zero h.2)⟩
  · intro h
    exact ⟨h.1, Nat.mod_eq_zero_of_dvd h.2.spacing_dvd⟩

theorem shortSignificand_zero : ShortSignificand 0 :=
  ⟨0, 0, by decide, rfl⟩

theorem shortSignificand_pow (exponent : Nat) : ShortSignificand (Nat.pow 2 exponent) :=
  ⟨1, exponent, by decide, (Nat.one_mul _).symm⟩

theorem shortSignificand_unitsBound : ShortSignificand unitsBound := by
  unfold unitsBound
  apply shortSignificand_pow

theorem shortSignificand_mul_pow {significand : Nat} (exponent : Nat)
    (h : significand ≤ 2 ^ 53) : ShortSignificand (significand * Nat.pow 2 exponent) :=
  ⟨significand, exponent, h, rfl⟩

theorem ShortSignificand.pow_dvd {units exponent : Nat} (h : ShortSignificand units)
    (hlarge : 2 ^ 52 * Nat.pow 2 exponent ≤ units) : Nat.pow 2 exponent ∣ units := by
  refine Nat.dvd_trans (Nat.pow_dvd_pow 2 ?_) h.spacing_dvd
  have hpos : 0 < Nat.pow 2 exponent := Nat.pow_pos (by decide)
  have hlog : 52 + exponent ≤ units.log2 := by
    refine (Nat.le_log2 (by omega)).mpr ?_
    rw [Nat.pow_add]
    exact hlarge
  omega

theorem spacing_dvd_pow {units exponent : Nat}
    (hsmall : units < 2 ^ 52 * Nat.pow 2 exponent) : spacing units ∣ Nat.pow 2 exponent := by
  apply Nat.pow_dvd_pow
  by_cases hzero : units = 0
  · simp [hzero]
  · have hlog : units.log2 < 52 + exponent := by
      rw [Nat.log2_lt hzero, Nat.pow_add]
      exact hsmall
    omega

private theorem div_mul_spacing (num den : Nat) :
    num / (den * spacing (num / den)) = num / den / spacing (num / den) :=
  (Nat.div_div_eq_div_mul _ _ _).symm

private theorem nearestEven_le_significand (num den : Nat) :
    nearestEven num (den * spacing (num / den)) ≤ 2 ^ 53 := by
  have hquotient : num / (den * spacing (num / den)) < 2 ^ 53 := by
    rw [div_mul_spacing]
    exact Nat.div_lt_of_lt_mul (by
      rw [Nat.mul_comm]
      exact lt_mul_spacing (num / den))
  exact Nat.le_trans (nearestEven_le _ _) hquotient

theorem shortSignificand_roundUnits (num den : Nat) :
    ShortSignificand (roundUnits num den) :=
  ⟨_, _, nearestEven_le_significand num den, rfl⟩

/-- What has few significant bits already is left alone. -/
theorem roundUnits_mul_right {units den : Nat} (h : ShortSignificand units)
    (hden : 0 < den) : roundUnits (units * den) den = units := by
  obtain ⟨significand, hsignificand⟩ := h.spacing_dvd
  have hmul : units * den = significand * (den * spacing units) := by
    calc
      units * den = (spacing units * significand) * den := by rw [← hsignificand]
      _ = significand * (den * spacing units) := by ring
  unfold roundUnits
  rw [Nat.mul_div_cancel _ hden]
  dsimp only
  rw [hmul, nearestEven_mul_right _ (Nat.mul_pos hden (spacing_pos units)), Nat.mul_comm]
  exact hsignificand.symm

theorem roundUnits_mono {a b : Nat} (den : Nat) (h : a ≤ b) :
    roundUnits a den ≤ roundUnits b den := by
  have hquotient : a / den ≤ b / den := Nat.div_le_div_right h
  rcases Nat.lt_or_eq_of_le (spacing_mono hquotient) with hlt | heq
  · -- The two fall into different binades, and a power of two lies between them.
    have hlog : (a / den).log2 - 52 < (b / den).log2 - 52 :=
      (Nat.pow_lt_pow_iff_right (by decide : 1 < 2)).mp hlt
    have hfull : 2 ^ 52 * spacing (b / den) ≤ b / den := by
      apply mul_spacing_le
      have hpos := spacing_pos (a / den)
      omega
    have hhigh : 2 ^ 52 ≤ nearestEven b (den * spacing (b / den)) := by
      refine Nat.le_trans ?_ (div_le_nearestEven _ _)
      rw [div_mul_spacing]
      exact (Nat.le_div_iff_mul_le (spacing_pos _)).mpr hfull
    calc
      roundUnits a den ≤ 2 ^ 53 * spacing (a / den) :=
        Nat.mul_le_mul_right _ (nearestEven_le_significand a den)
      _ = 2 ^ 52 * 2 ^ ((a / den).log2 - 52 + 1) := by
        change 2 ^ 53 * 2 ^ ((a / den).log2 - 52) = _
        rw [← Nat.pow_add, ← Nat.pow_add]
        congr 1
        omega
      _ ≤ 2 ^ 52 * spacing (b / den) :=
        Nat.mul_le_mul_left _ (Nat.pow_le_pow_right (by decide) hlog)
      _ ≤ roundUnits b den := Nat.mul_le_mul_right _ hhigh
  · unfold roundUnits
    dsimp only
    rw [heq]
    exact Nat.mul_le_mul_right _ (nearestEven_mono _ h)

theorem two_mul_roundUnits_mul_le (num : Nat) {den : Nat} (hden : 0 < den) :
    2 * (roundUnits num den * den) ≤ 2 * num + den * spacing (num / den) := by
  have hbound := two_mul_nearestEven_mul_le num
    (Nat.mul_pos hden (spacing_pos (num / den)))
  calc
    2 * (roundUnits num den * den) =
        2 * (nearestEven num (den * spacing (num / den)) *
          (den * spacing (num / den))) := by
      unfold roundUnits
      ring
    _ ≤ 2 * num + den * spacing (num / den) := hbound

theorem two_mul_le_roundUnits_mul (num : Nat) {den : Nat} (hden : 0 < den) :
    2 * num ≤ 2 * (roundUnits num den * den) + den * spacing (num / den) := by
  have hbound := two_mul_le_nearestEven_mul num
    (Nat.mul_pos hden (spacing_pos (num / den)))
  calc
    2 * num ≤ 2 * (nearestEven num (den * spacing (num / den)) *
        (den * spacing (num / den))) + den * spacing (num / den) := hbound
    _ = 2 * (roundUnits num den * den) + den * spacing (num / den) := by
      unfold roundUnits
      ring

theorem spacing_le_two_mul_sub {a b : Nat} (ha : ShortSignificand a)
    (hb : ShortSignificand b) (hlt : a < b) : spacing b ≤ 2 * (b - a) := by
  have hne : b ≠ 0 := by omega
  by_cases hfar : 2 * a < b
  · have hle : spacing b ≤ b :=
      Nat.le_of_dvd (Nat.pos_of_ne_zero hne) hb.spacing_dvd
    omega
  · have hlog : b.log2 ≤ a.log2 + 1 := by
      have hlt' : b.log2 < a.log2 + 2 := by
        rw [Nat.log2_lt hne, Nat.pow_succ]
        have hself : a < 2 ^ (a.log2 + 1) := Nat.lt_log2_self
        omega
      omega
    have hspacing : spacing b ∣ 2 * spacing a := by
      change 2 ^ (b.log2 - 52) ∣ 2 * 2 ^ (a.log2 - 52)
      rw [← Nat.pow_succ']
      exact Nat.pow_dvd_pow 2 (by omega)
    have hdvd : spacing b ∣ 2 * b - 2 * a :=
      Nat.dvd_sub (Nat.dvd_mul_left_of_dvd hb.spacing_dvd 2)
        (Nat.dvd_trans hspacing (Nat.mul_dvd_mul_left 2 ha.spacing_dvd))
    rw [Nat.mul_sub]
    exact Nat.le_of_dvd (by omega) hdvd

theorem four_mul_spacing_le {a b : Nat} (h : 4 * a ≤ b) (ha : 1 < spacing a) :
    4 * spacing a ≤ spacing b := by
  have hfull := mul_spacing_le ha
  have hane : a ≠ 0 := by
    rintro rfl
    have := spacing_pos 0
    omega
  have hlog : a.log2 + 2 ≤ b.log2 := by
    refine (Nat.le_log2 (by omega)).mpr (Nat.le_trans ?_ h)
    rw [Nat.pow_add, Nat.mul_comm]
    exact Nat.mul_le_mul_left 4 (Nat.log2_self_le hane)
  have hlarge : 52 < a.log2 := by
    by_contra hle
    have hone : spacing a = 2 ^ 0 :=
      congrArg (2 ^ ·) (show a.log2 - 52 = 0 by omega)
    omega
  calc
    4 * spacing a = 2 ^ (2 + (a.log2 - 52)) := by
      rw [Nat.pow_add]
      rfl
    _ ≤ spacing b := Nat.pow_le_pow_right (by decide) (by omega)

/-- A rounded product with a small factor grows no faster than the other factor. -/
theorem roundUnits_mul_le_add {c den a b : Nat} (hc : 4 * c ≤ den) (hden : 0 < den)
    (ha : ShortSignificand a) (hb : ShortSignificand b) (hlt : a < b) :
    roundUnits (c * b) den ≤ roundUnits (c * a) den + (b - a) := by
  have hup := two_mul_roundUnits_mul_le (c * b) hden
  have hdown := two_mul_le_roundUnits_mul (c * a) hden
  have hspacing : spacing (c * a / den) ≤ spacing (c * b / den) :=
    spacing_mono (Nat.div_le_div_right (Nat.mul_le_mul_left c (Nat.le_of_lt hlt)))
  have hsum : roundUnits (c * b) den * den ≤
      roundUnits (c * a) den * den + c * (b - a) + den * spacing (c * b / den) := by
    have hmul : c * b = c * a + c * (b - a) := by
      rw [← Nat.mul_add]
      congr 1
      omega
    have hle := Nat.mul_le_mul_left den hspacing
    omega
  have hshare : 4 * (c * (b - a)) ≤ den * (b - a) := by
    rw [← Nat.mul_assoc]
    exact Nat.mul_le_mul_right _ hc
  by_contra hgt
  have hstep : (roundUnits (c * a) den + (b - a) + 1) * den ≤
      roundUnits (c * b) den * den := Nat.mul_le_mul_right den (by omega)
  have hpos : 0 < den * (b - a) := Nat.mul_pos hden (by omega)
  have hexpand : (roundUnits (c * a) den + (b - a) + 1) * den =
      roundUnits (c * a) den * den + den * (b - a) + den := by ring
  by_cases hunit : spacing (c * b / den) ≤ 1
  · have hle := Nat.mul_le_mul_left den hunit
    omega
  · have hquarter : 4 * (c * b / den) ≤ b := by
      refine Nat.le_of_mul_le_mul_left (c := den) ?_ hden
      calc
        den * (4 * (c * b / den)) = 4 * (den * (c * b / den)) := by ring
        _ ≤ 4 * (c * b) := Nat.mul_le_mul_left 4 (Nat.mul_div_le _ _)
        _ = 4 * c * b := by ring
        _ ≤ den * b := Nat.mul_le_mul_right b hc
    have hfour := four_mul_spacing_le hquarter (Nat.lt_of_not_le hunit)
    have hgap := spacing_le_two_mul_sub ha hb hlt
    have hle : den * (2 * spacing (c * b / den)) ≤ den * (b - a) :=
      Nat.mul_le_mul_left den (by omega)
    rw [Nat.mul_left_comm] at hle
    omega

/-- How large a power of two one is does not matter to most that is said of it. -/
theorem exists_unitsPerOne_eq : ∃ exponent, unitsPerOne = Nat.pow 2 exponent := by
  unfold unitsPerOne
  exact ⟨_, rfl⟩

theorem unitsPerOne_pos : 0 < unitsPerOne := by
  obtain ⟨exponent, hexponent⟩ := exists_unitsPerOne_eq
  rw [hexponent]
  exact Nat.pow_pos (by decide)

end ApneaScoring
