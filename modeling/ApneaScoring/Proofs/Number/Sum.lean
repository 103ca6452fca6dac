import ApneaScoring.Proofs.Combination
import ApneaScoring.Proofs.Comparator
import ApneaScoring.Proofs.Number.Value
import Mathlib.Algebra.Order.BigOperators.Group.List
import Mathlib.Data.List.Permutation

namespace ApneaScoring

namespace Binary64

/-- What a sum compares as; no terms count as zero. -/
def summed (xs : List Binary64) : Binary64 :=
  orZero (total xs)

def exactSum (xs : List Binary64) : ℚ :=
  (xs.map toRat).sum

def magnitude (xs : List Binary64) : ℚ :=
  (xs.map fun x => |x.toRat|).sum

/-- How far a sum may be from the exact one, having been rounded after each addition. -/
def sumReach (xs : List Binary64) : ℚ :=
  ((1 + roundoff) ^ (xs.length - 1) - 1) * magnitude xs

/-- Finite terms of which no sum leaves the finite range on the way. -/
structure Fits (xs : List Binary64) : Prop where
  isFinite : ∀ x ∈ xs, x.isFinite = true
  magnitude_lt : (1 + roundoff) ^ (xs.length - 1) * magnitude xs < finiteBound

/-- Terms that are multiples of a power of two, and so few that every sum of them fits in 53
bits. -/
structure OnGrid (exponent : Nat) (xs : List Binary64) : Prop where
  isFinite : ∀ x ∈ xs, x.isFinite = true
  dvd : ∀ x ∈ xs, 2 ^ exponent ∣ x.place.natAbs
  sum_le : (xs.map (·.place.natAbs)).sum ≤ 2 ^ 53 * 2 ^ exponent
  sum_lt : (xs.map (·.place.natAbs)).sum < unitsBound

/-- Terms of which the sum is one and the same in every order. -/
def OrderFree (xs : List Binary64) : Prop :=
  xs.length ≤ 2 ∨ ∃ exponent, OnGrid exponent xs

section

variable {a b : Binary64} {xs ys : List Binary64} {exact whole : ℚ} {additions exponent : Nat}

theorem magnitude_nonneg (xs : List Binary64) : 0 ≤ magnitude xs :=
  List.sum_nonneg (by simp)

theorem one_le_roundoff_pow (additions : Nat) : 1 ≤ (1 + roundoff) ^ additions :=
  one_le_pow₀ (by linarith [roundoff_pos])

theorem sumReach_nonneg (xs : List Binary64) : 0 ≤ sumReach xs :=
  mul_nonneg (sub_nonneg.mpr (one_le_roundoff_pow _)) (magnitude_nonneg xs)

/-- A running sum after so many additions. -/
structure Approximates (a : Binary64) (exact whole : ℚ) (additions : Nat) : Prop where
  isFinite : a.isFinite = true
  abs_le : |exact| ≤ whole
  near : |a.toRat - exact| ≤ ((1 + roundoff) ^ additions - 1) * whole

theorem approximates_self (ha : a.isFinite = true) : Approximates a a.toRat |a.toRat| 0 :=
  ⟨ha, le_rfl, by simp⟩

theorem Approximates.abs_toRat_le (h : Approximates a exact whole additions) :
    |a.toRat| ≤ (1 + roundoff) ^ additions * whole := by
  have htriangle := abs_sub_abs_le_abs_sub a.toRat exact
  have hnear := h.near
  have hle := h.abs_le
  linarith

theorem Approximates.add (h : Approximates a exact whole additions) (hb : b.isFinite = true)
    (hfits : (1 + roundoff) ^ (additions + 1) * (whole + |b.toRat|) < finiteBound) :
    Approximates (a + b) (exact + b.toRat) (whole + |b.toRat|) (additions + 1) := by
  have hgrowth := one_le_roundoff_pow additions
  have hsum : |a.toRat + b.toRat| ≤ (1 + roundoff) ^ additions * (whole + |b.toRat|) := by
    have htriangle := abs_add_le a.toRat b.toRat
    have hterm := le_mul_of_one_le_left (abs_nonneg b.toRat) hgrowth
    have hrunning := h.abs_toRat_le
    linarith
  have hfinite : (a + b).isFinite = true := by
    apply isFinite_add h.isFinite hb
    calc
      (1 + roundoff) * |a.toRat + b.toRat| ≤
          (1 + roundoff) * ((1 + roundoff) ^ additions * (whole + |b.toRat|)) :=
        mul_le_mul_of_nonneg_left hsum (by linarith [roundoff_pos])
      _ = (1 + roundoff) ^ (additions + 1) * (whole + |b.toRat|) := by ring
      _ < finiteBound := hfits
  refine ⟨hfinite, (abs_add_le _ _).trans (add_le_add_left h.abs_le _), ?_⟩
  have hround := abs_toRat_add_sub_le h.isFinite hb hfinite
  have hrounded := mul_le_mul_of_nonneg_left hsum roundoff_pos.le
  have hterm := mul_nonneg (sub_nonneg.mpr hgrowth) (abs_nonneg b.toRat)
  have hnear := h.near
  have htriangle := abs_sub_le (a + b).toRat (a.toRat + b.toRat) (exact + b.toRat)
  rw [add_sub_add_right_eq_sub] at htriangle
  calc
    |(a + b).toRat - (exact + b.toRat)| ≤
        roundoff * ((1 + roundoff) ^ additions * (whole + |b.toRat|)) +
          ((1 + roundoff) ^ additions - 1) * whole := by linarith
    _ ≤ ((1 + roundoff) ^ (additions + 1) - 1) * (whole + |b.toRat|) := by
      rw [pow_succ]
      linarith

theorem Approximates.foldl (h : Approximates a exact whole additions)
    (hfinite : ∀ x ∈ xs, x.isFinite = true)
    (hfits : (1 + roundoff) ^ (additions + xs.length) * (whole + magnitude xs) < finiteBound) :
    Approximates (xs.foldl (· + ·) a) (exact + exactSum xs) (whole + magnitude xs)
      (additions + xs.length) := by
  induction xs generalizing a exact whole additions with
  | nil => simpa [exactSum, magnitude] using h
  | cons x xs ih =>
      have hexact : exact + exactSum (x :: xs) = exact + x.toRat + exactSum xs := by
        simp [exactSum, add_assoc]
      have hwhole : whole + magnitude (x :: xs) = whole + |x.toRat| + magnitude xs := by
        simp [magnitude, add_assoc]
      have hlength : additions + (x :: xs).length = additions + 1 + xs.length := by
        rw [List.length_cons]
        omega
      rw [hwhole, hlength] at hfits
      rw [hexact, hwhole, hlength]
      rw [List.forall_mem_cons] at hfinite
      refine ih (h.add hfinite.1 ?_) hfinite.2 hfits
      refine lt_of_le_of_lt ?_ hfits
      have hnonneg := h.abs_le.trans' (abs_nonneg exact)
      have hrest := magnitude_nonneg xs
      apply mul_le_mul
      · exact pow_le_pow_right₀ (by linarith [roundoff_pos]) (by omega)
      · linarith
      · linarith [abs_nonneg x.toRat]
      · linarith [one_le_roundoff_pow (additions + 1 + xs.length)]

theorem toRat_orZero (x : Option Binary64) : (orZero x).toRat = (x.getD zero).toRat := by
  rw [toRat, place_orZero, toRat]

/-- Added in any order, terms that fit come near the exact sum. -/
theorem summed_near (h : Fits xs) :
    (summed xs).isFinite = true ∧ |(summed xs).toRat - exactSum xs| ≤ sumReach xs := by
  unfold summed
  rw [toRat_orZero]
  cases xs with
  | nil => simp [total, exactSum, sumReach, magnitude, orZero, toRat_zero, isFinite_zero]
  | cons x xs =>
      obtain ⟨hfinite, hfits⟩ := h
      rw [List.forall_mem_cons] at hfinite
      have hmagnitude : magnitude (x :: xs) = |x.toRat| + magnitude xs := by simp [magnitude]
      have hexact : exactSum (x :: xs) = x.toRat + exactSum xs := by simp [exactSum]
      rw [hmagnitude, List.length_cons, Nat.add_sub_cancel, ← Nat.zero_add xs.length] at hfits
      have hsum := (approximates_self hfinite.1).foldl hfinite.2 hfits
      refine ⟨isFinite_orZero fun y hy => Option.some.inj hy ▸ hsum.isFinite, ?_⟩
      rw [sumReach, hmagnitude, hexact, List.length_cons, Nat.add_sub_cancel,
        ← Nat.zero_add xs.length]
      exact hsum.near

theorem exactSum_perm (h : ys.Perm xs) : exactSum ys = exactSum xs :=
  (h.map _).sum_eq

theorem magnitude_perm (h : ys.Perm xs) : magnitude ys = magnitude xs :=
  (h.map _).sum_eq

theorem sumReach_perm (h : ys.Perm xs) : sumReach ys = sumReach xs := by
  rw [sumReach, sumReach, magnitude_perm h, h.length_eq]

theorem Fits.perm (h : Fits xs) (hperm : ys.Perm xs) : Fits ys where
  isFinite x hx := h.isFinite x (hperm.mem_iff.mp hx)
  magnitude_lt := by
    rw [magnitude_perm hperm, hperm.length_eq]
    exact h.magnitude_lt

theorem total_perm_of_length_le_two (hlength : xs.length ≤ 2) (h : ys.Perm xs) :
    total ys = total xs := by
  rcases xs with - | ⟨x, - | ⟨y, - | ⟨z, rest⟩⟩⟩
  · rw [List.perm_nil.mp h]
  · rw [List.perm_singleton.mp h]
  · rcases List.perm_pair.mp h with rfl | rfl
    · rfl
    · exact congrArg some (add_comm y x)
  · simp only [List.length_cons] at hlength
    omega

theorem OnGrid.foldl (ha : a.isFinite = true) (hdvd : 2 ^ exponent ∣ a.place.natAbs)
    (hfinite : ∀ x ∈ xs, x.isFinite = true) (hdvds : ∀ x ∈ xs, 2 ^ exponent ∣ x.place.natAbs)
    (hle : a.place.natAbs + (xs.map (·.place.natAbs)).sum ≤ 2 ^ 53 * 2 ^ exponent)
    (hlt : a.place.natAbs + (xs.map (·.place.natAbs)).sum < unitsBound) :
    (xs.foldl (· + ·) a).isFinite = true ∧
      (xs.foldl (· + ·) a).place = a.place + (xs.map (·.place)).sum := by
  induction xs generalizing a with
  | nil => simpa using ha
  | cons x xs ih =>
      rw [List.forall_mem_cons] at hfinite hdvds
      rw [List.map_cons, List.sum_cons] at hle hlt
      have hdvdSum : 2 ^ exponent ∣ (a.place + x.place).natAbs := by
        rw [← Int.natCast_dvd] at hdvd ⊢
        exact Int.dvd_add hdvd (Int.natCast_dvd.mpr hdvds.1)
      obtain ⟨significand, hsignificand⟩ := hdvdSum
      have hshort : Representable (a.place + x.place).natAbs := by
        refine representable_iff.mpr ⟨by omega, significand, exponent, ?_, ?_⟩
        · apply Nat.le_of_mul_le_mul_right (c := 2 ^ exponent) _ (Nat.pow_pos (by decide))
          rw [Nat.mul_comm significand, ← hsignificand]
          omega
        · rw [hsignificand, Nat.mul_comm]
      have hexact : (a + x).place = a.place + x.place := by
        rw [place_add ha hfinite.1]
        conv_rhs => rw [← signedUnits_natAbs (a.place + x.place)]
        conv_lhs => rw [← signedUnits_natAbs (a.place + x.place)]
        exact nearestPlace_place (a := finite _ _ hshort) (by simp)
      have hsum : (a + x).isFinite = true := by
        refine isFinite_iff.mpr ⟨add_ne_nan (ne_nan_of_isFinite ha) hfinite.1, ?_⟩
        rw [hexact]
        exact hshort.1
      have hstep := ih hsum (by rw [hexact, hsignificand]; exact Nat.dvd_mul_right _ _)
        hfinite.2 hdvds.2 (by rw [hexact]; omega) (by rw [hexact]; omega)
      rw [List.foldl_cons, List.map_cons, List.sum_cons, ← Int.add_assoc, ← hexact]
      exact hstep

theorem summed_of_onGrid (h : OnGrid exponent xs) :
    (summed xs).isFinite = true ∧ (summed xs).place = (xs.map (·.place)).sum := by
  unfold summed
  rw [place_orZero]
  cases xs with
  | nil => exact ⟨rfl, rfl⟩
  | cons x xs =>
      obtain ⟨hfinite, hdvd, hle, hlt⟩ := h
      rw [List.forall_mem_cons] at hfinite hdvd
      rw [List.map_cons, List.sum_cons] at hle hlt
      have hsum := OnGrid.foldl hfinite.1 hdvd.1 hfinite.2 hdvd.2 hle hlt
      exact ⟨isFinite_orZero fun y hy => Option.some.inj hy ▸ hsum.1, hsum.2⟩

theorem OnGrid.perm (h : OnGrid exponent xs) (hperm : ys.Perm xs) : OnGrid exponent ys where
  isFinite x hx := h.isFinite x (hperm.mem_iff.mp hx)
  dvd x hx := h.dvd x (hperm.mem_iff.mp hx)
  sum_le := by
    rw [(hperm.map _).sum_eq]
    exact h.sum_le
  sum_lt := by
    rw [(hperm.map _).sum_eq]
    exact h.sum_lt

theorem summed_perm (h : OrderFree xs) (hperm : ys.Perm xs) :
    (summed ys).position? = (summed xs).position? := by
  rcases h with hlength | ⟨exponent, hgrid⟩
  · rw [summed, summed, total_perm_of_length_le_two hlength hperm]
  · obtain ⟨hfinite, hplace⟩ := summed_of_onGrid hgrid
    obtain ⟨hfinite', hplace'⟩ := summed_of_onGrid (hgrid.perm hperm)
    rw [position?_eq_place (ne_nan_of_isFinite hfinite),
      position?_eq_place (ne_nan_of_isFinite hfinite'), hplace, hplace', (hperm.map _).sum_eq]

theorem sum_natAbs_place_of_isWhole {wholes : List Nat} (h : List.Forall₂ IsWhole xs wholes) :
    (xs.map (·.place.natAbs)).sum = wholes.sum * unitsPerOne := by
  induction h with
  | nil => simp
  | cons hx _ ih =>
      rw [List.map_cons, List.sum_cons, ih, List.sum_cons, hx.2, ← Int.natCast_mul,
        Int.natAbs_natCast, Nat.add_mul]

/-- Whole numbers are added exactly. -/
theorem orderFree_of_isWhole {wholes : List Nat} (h : List.Forall₂ IsWhole xs wholes)
    (hsum : wholes.sum ≤ 2 ^ 53) : OrderFree xs := by
  obtain ⟨exponent, hexponent⟩ := exists_unitsPerOne_eq
  have hwhole : ∀ x ∈ xs, ∃ n, x.IsWhole n := by
    intro x hx
    obtain ⟨index, hindex, rfl⟩ := List.mem_iff_getElem.mp hx
    exact ⟨_, h.get hindex (h.length_eq ▸ hindex)⟩
  refine .inr ⟨exponent, ?_, ?_, ?_, ?_⟩
  · intro x hx
    obtain ⟨n, hn⟩ := hwhole x hx
    exact hn.1
  · intro x hx
    obtain ⟨n, hn⟩ := hwhole x hx
    rw [hn.2, ← Int.natCast_mul, Int.natAbs_natCast, hexponent]
    exact Nat.dvd_mul_left _ n
  · rw [sum_natAbs_place_of_isWhole h, hexponent]
    exact Nat.mul_le_mul_right _ hsum
  · rw [sum_natAbs_place_of_isWhole h]
    exact (representable_whole hsum).1

theorem order_of_position? {a' b' : Binary64} (ha : a.position? = a'.position?)
    (hb : b.position? = b'.position?) : a.order b = a'.order b' := by
  unfold order lt
  rw [ha, hb]

/-- Sums that are further apart than rounding reaches stand as the exact ones do. -/
theorem order_summed_of_lt (hxs : Fits xs) (hys : Fits ys)
    (h : sumReach xs + sumReach ys < |exactSum xs - exactSum ys|) :
    (summed xs).order (summed ys) = compare (exactSum xs) (exactSum ys) := by
  obtain ⟨hfinite, hnear⟩ := summed_near hxs
  obtain ⟨hfinite', hnear'⟩ := summed_near hys
  rw [abs_sub_le_iff] at hnear hnear'
  rw [order_eq_compare (ne_nan_of_isFinite hfinite) (ne_nan_of_isFinite hfinite')]
  rcases lt_abs.mp h with hgt | hlt
  · have hplace : (summed ys).place < (summed xs).place := toRat_lt_iff.mp (by linarith)
    have hreach := sumReach_nonneg xs
    have hreach' := sumReach_nonneg ys
    rw [compare_gt_iff_gt.mpr hplace, compare_gt_iff_gt.mpr (by linarith)]
  · have hplace : (summed xs).place < (summed ys).place := toRat_lt_iff.mp (by linarith)
    have hreach := sumReach_nonneg xs
    have hreach' := sumReach_nonneg ys
    rw [compare_lt_iff_lt.mpr hplace, compare_lt_iff_lt.mpr (by linarith)]

end

end Binary64

end ApneaScoring
