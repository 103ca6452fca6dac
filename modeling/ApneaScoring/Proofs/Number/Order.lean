import ApneaScoring.Proofs.Number.Rounding

namespace ApneaScoring.Binary64

/-- Where a number stands on the line, in units; NaN is put at zero. -/
def place (a : Binary64) : Int :=
  a.position?.getD 0

theorem position?_eq_place {a : Binary64} (h : a ≠ nan) : a.position? = some a.place := by
  cases a with
  | finite s u hu => rfl
  | infinite s => rfl
  | nan => exact absurd rfl h

@[simp] theorem place_finite (s : Bool) (u : Nat) (h : Representable u) :
    (finite s u h).place = signedUnits s u := rfl

@[simp] theorem place_infinite (s : Bool) :
    (infinite s).place = signedUnits s unitsBound := rfl

@[simp] theorem place_zero : zero.place = 0 := rfl

@[simp] theorem place_neg (a : Binary64) : a.neg.place = -a.place := by
  cases a with
  | finite s u h => exact signedUnits_not s u
  | infinite s => exact signedUnits_not s unitsBound
  | nan => rfl

@[simp] theorem signedUnits_true (u : Nat) : signedUnits true u = -u := by
  simp [signedUnits]

@[simp] theorem signedUnits_false (u : Nat) : signedUnits false u = u := by
  simp [signedUnits]

theorem natAbs_signedUnits (s : Bool) (u : Nat) : (signedUnits s u).natAbs = u := by
  cases s <;> simp [signedUnits]

theorem place_abs (a : Binary64) : a.abs.place = a.place.natAbs := by
  cases a with
  | finite s u h =>
      rw [place_finite, natAbs_signedUnits]
      rfl
  | infinite s =>
      rw [place_infinite, natAbs_signedUnits]
      rfl
  | nan => rfl

theorem abs_ne_nan {a : Binary64} (h : a ≠ nan) : a.abs ≠ nan := by
  cases a with
  | finite s u hu => simp [abs]
  | infinite s => simp [abs]
  | nan => exact absurd rfl h

theorem neg_ne_nan {a : Binary64} (h : a ≠ nan) : a.neg ≠ nan := by
  cases a with
  | finite s u hu => simp [neg]
  | infinite s => simp [neg]
  | nan => exact absurd rfl h

theorem zero_ne_nan : zero ≠ nan := by simp [zero]

theorem isFinite_zero : zero.isFinite = true := rfl

theorem ne_nan_of_isFinite {a : Binary64} (h : a.isFinite = true) : a ≠ nan := by
  rintro rfl
  cases h

theorem natAbs_place_le (a : Binary64) : a.place.natAbs ≤ unitsBound := by
  cases a with
  | finite s u h =>
      rw [place_finite, natAbs_signedUnits]
      exact Nat.le_of_lt h.1
  | infinite s => rw [place_infinite, natAbs_signedUnits]
  | nan => exact Nat.zero_le _

theorem isFinite_iff {a : Binary64} :
    a.isFinite = true ↔ a ≠ nan ∧ a.place.natAbs < unitsBound := by
  cases a with
  | finite s u h => simp [isFinite, natAbs_signedUnits, h.1]
  | infinite s => simp [isFinite, natAbs_signedUnits]
  | nan => simp [isFinite]

theorem representable_place {a : Binary64} (h : a.isFinite = true) :
    a.place.natAbs < unitsBound ∧ ShortSignificand a.place.natAbs := by
  cases a with
  | finite s u hu =>
      rw [place_finite, natAbs_signedUnits]
      exact representable_iff.mp hu
  | infinite s => cases h
  | nan => cases h

theorem le_iff {a b : Binary64} :
    a.le b = true ↔ a ≠ nan ∧ b ≠ nan ∧ a.place ≤ b.place := by
  cases a <;> cases b <;> simp [le, place, position?]

theorem lt_iff {a b : Binary64} :
    a.lt b = true ↔ a ≠ nan ∧ b ≠ nan ∧ a.place < b.place := by
  cases a <;> cases b <;> simp [lt, place, position?]

theorem eqv_iff {a b : Binary64} :
    a.eqv b = true ↔ a ≠ nan ∧ b ≠ nan ∧ a.place = b.place := by
  cases a <;> cases b <;> simp [eqv, place, position?]

theorem isZero_iff {a : Binary64} : a.isZero = true ↔ a ≠ nan ∧ a.place = 0 := by
  unfold isZero
  rw [eqv_iff]
  simp [zero_ne_nan]

theorem le_refl {a : Binary64} (h : a ≠ nan) : a.le a = true :=
  le_iff.mpr ⟨h, h, Int.le_refl _⟩

theorem le_trans {a b c : Binary64} (hab : a.le b = true) (hbc : b.le c = true) :
    a.le c = true := by
  rw [le_iff] at *
  exact ⟨hab.1, hbc.2.1, Int.le_trans hab.2.2 hbc.2.2⟩

theorem le_of_lt {a b : Binary64} (h : a.lt b = true) : a.le b = true := by
  rw [lt_iff] at h
  exact le_iff.mpr ⟨h.1, h.2.1, Int.le_of_lt h.2.2⟩

theorem not_le_iff_lt {a b : Binary64} (ha : a ≠ nan) (hb : b ≠ nan) :
    ¬ a.le b = true ↔ b.lt a = true := by
  simp [le_iff, lt_iff, ha, hb]

theorem neg_le_neg {a b : Binary64} (h : a.le b = true) : b.neg.le a.neg = true := by
  rw [le_iff] at h
  refine le_iff.mpr ⟨neg_ne_nan h.2.1, neg_ne_nan h.1, ?_⟩
  simpa using h.2.2

/-- The place nearest to a total at which a number stands. -/
def nearestPlace (total : Int) : Int :=
  signedUnits (total < 0) (min (roundUnits total.natAbs 1) unitsBound)

theorem ofUnits_ne_nan (s : Bool) (u : Nat) : ofUnits s u ≠ nan := by
  unfold ofUnits
  split <;> simp

theorem place_ofUnits (s : Bool) {u : Nat} (h : ShortSignificand u) :
    (ofUnits s u).place = signedUnits s (min u unitsBound) := by
  unfold ofUnits
  split
  · next hu => rw [place_finite, Nat.min_eq_left (Nat.le_of_lt hu.1)]
  · next hu =>
      have hbound : unitsBound ≤ u := by
        by_contra hlt
        exact hu (representable_iff.mpr ⟨Nat.lt_of_not_le hlt, h⟩)
      rw [place_infinite, Nat.min_eq_right hbound]

theorem roundUnits_zero (den : Nat) : roundUnits 0 den = 0 := by
  simp [roundUnits, nearestEven]

theorem roundUnits_one_of_short {u : Nat} (h : ShortSignificand u) : roundUnits u 1 = u := by
  simpa using roundUnits_mul_right h Nat.one_pos

theorem place_addUnits (s : Bool) (u : Nat) (t : Bool) (v : Nat) :
    (addUnits s u t v).place = nearestPlace (signedUnits s u + signedUnits t v) := by
  unfold addUnits nearestPlace
  dsimp only
  rw [place_ofUnits _ (shortSignificand_roundUnits _ _)]
  split
  · next h => rw [h]; simp [roundUnits_zero, signedUnits]
  · rfl

theorem natAbs_nearestPlace_le (total : Int) : (nearestPlace total).natAbs ≤ unitsBound := by
  unfold nearestPlace
  rw [natAbs_signedUnits]
  exact Nat.min_le_right _ _

theorem nearestPlace_mono {a b : Int} (h : a ≤ b) : nearestPlace a ≤ nearestPlace b := by
  unfold nearestPlace signedUnits
  by_cases ha : a < 0
  · by_cases hb : b < 0
    · have hround := roundUnits_mono 1 (show b.natAbs ≤ a.natAbs by omega)
      simp only [ha, hb, decide_true, if_true]
      omega
    · simp only [ha, hb, decide_true, decide_false, if_true, Bool.false_eq_true, if_false]
      omega
  · have hb : ¬ b < 0 := by omega
    have hround := roundUnits_mono 1 (show a.natAbs ≤ b.natAbs by omega)
    simp only [ha, hb, decide_false, Bool.false_eq_true, if_false]
    omega

theorem nearestPlace_place {a : Binary64} (h : a ≠ nan) : nearestPlace a.place = a.place := by
  have hround : ∀ (s : Bool) {u : Nat}, ShortSignificand u → u ≤ unitsBound →
      nearestPlace (signedUnits s u) = signedUnits s u := by
    intro s u hshort hle
    unfold nearestPlace
    rw [natAbs_signedUnits, roundUnits_one_of_short hshort, Nat.min_eq_left hle]
    unfold signedUnits
    cases s with
    | false => simp
    | true =>
        by_cases hu : u = 0
        · simp [hu]
        · have hpos : 0 < u := Nat.pos_of_ne_zero hu
          simp [hpos]
  cases a with
  | finite s u hu =>
      exact hround s (representable_iff.mp hu).2 (Nat.le_of_lt hu.1)
  | infinite s =>
      exact hround s shortSignificand_unitsBound (Nat.le_refl _)
  | nan => exact absurd rfl h

theorem finite_add_finite {s t : Bool} {u v : Nat} (hu : Representable u)
    (hv : Representable v) : finite s u hu + finite t v hv = addUnits s u t v := by
  change add _ _ = _
  simp only [add]

theorem add_comm (a b : Binary64) : a + b = b + a := by
  change a.add b = b.add a
  cases a with
  | finite s u hu =>
      cases b with
      | finite t v hv => simp only [add, addUnits, Int.add_comm, Bool.and_comm]
      | infinite t => rfl
      | nan => rfl
  | infinite s =>
      cases b with
      | finite t v hv => rfl
      | infinite t => cases s <;> cases t <;> rfl
      | nan => rfl
  | nan => cases b <;> rfl

theorem place_add {a b : Binary64} (ha : a.isFinite = true) (hb : b.isFinite = true) :
    (a + b).place = nearestPlace (a.place + b.place) := by
  cases a with
  | finite s u hu =>
      cases b with
      | finite t v hv =>
          rw [finite_add_finite]
          exact place_addUnits s u t v
      | infinite t => cases hb
      | nan => cases hb
  | infinite s => cases ha
  | nan => cases ha

theorem infinite_add {b : Binary64} (s : Bool) (hb : b.isFinite = true) :
    infinite s + b = infinite s := by
  cases b with
  | finite t v hv => rfl
  | infinite t => cases hb
  | nan => cases hb

theorem add_ne_nan {a b : Binary64} (ha : a ≠ nan) (hb : b.isFinite = true) :
    a + b ≠ nan := by
  cases a with
  | finite s u hu =>
      cases b with
      | finite t v hv =>
          rw [finite_add_finite]
          exact ofUnits_ne_nan _ _
      | infinite t => cases hb
      | nan => cases hb
  | infinite s => simp [infinite_add s hb]
  | nan => exact absurd rfl ha

theorem add_le_add {a a' b b' : Binary64} (ha : a.le a' = true) (hb : b.le b' = true)
    (hfinite : b.isFinite = true) (hfinite' : b'.isFinite = true) :
    (a + b).le (a' + b') = true := by
  rw [le_iff] at ha hb
  obtain ⟨hnan, hnan', hle⟩ := ha
  refine le_iff.mpr ⟨add_ne_nan hnan hfinite, add_ne_nan hnan' hfinite', ?_⟩
  have hsum := natAbs_nearestPlace_le (a.place + b.place)
  have hsum' := natAbs_nearestPlace_le (a'.place + b'.place)
  have hbound := natAbs_place_le (a + b)
  have hbound' := natAbs_place_le (a' + b')
  cases a with
  | nan => exact absurd rfl hnan
  | infinite s =>
      rw [infinite_add s hfinite] at *
      cases s with
      | true =>
          simp only [place_infinite, signedUnits, if_true]
          omega
      | false =>
          cases a' with
          | nan => exact absurd rfl hnan'
          | infinite t =>
              rw [infinite_add t hfinite']
              exact hle
          | finite t v hv =>
              have hlt := hv.1
              have habs := natAbs_signedUnits t v
              simp only [place_infinite, place_finite, signedUnits, Bool.false_eq_true,
                if_false] at hle habs
              omega
  | finite s u hu =>
      rw [place_add rfl hfinite]
      cases a' with
      | nan => exact absurd rfl hnan'
      | finite t v hv =>
          rw [place_add rfl hfinite']
          exact nearestPlace_mono (Int.add_le_add hle hb.2.2)
      | infinite t =>
          rw [infinite_add t hfinite']
          cases t with
          | false =>
              simp only [place_infinite, signedUnits, Bool.false_eq_true, if_false]
              omega
          | true =>
              have hlt := hu.1
              have habs := natAbs_signedUnits s u
              simp only [place_infinite, place_finite, signedUnits, if_true] at hle habs
              omega

theorem zero_add {a : Binary64} (h : a ≠ nan) : (zero + a).place = a.place := by
  cases a with
  | finite s u hu =>
      rw [place_add rfl rfl, place_zero, Int.zero_add]
      exact nearestPlace_place h
  | infinite s => rfl
  | nan => exact absurd rfl h

theorem le_add_right {a d : Binary64} (ha : a ≠ nan) (hd : d.isFinite = true)
    (hnonneg : 0 ≤ d.place) : a.le (a + d) = true := by
  have hsum := add_ne_nan ha hd
  cases a with
  | finite s u hu =>
      refine le_iff.mpr ⟨ha, hsum, ?_⟩
      rw [place_add rfl hd]
      calc
        (finite s u hu).place = nearestPlace (finite s u hu).place :=
          (nearestPlace_place ha).symm
        _ ≤ nearestPlace ((finite s u hu).place + d.place) := nearestPlace_mono (by omega)
  | infinite s =>
      rw [infinite_add s hd]
      exact le_refl ha
  | nan => exact absurd rfl ha

/-! Sums that start at zero never come to the negative zero, so a zero that is added to them is
not seen. -/

def IsPlain (a : Binary64) : Prop :=
  a.place = 0 → a.negative = false

theorem isPlain_zero : zero.IsPlain := fun _ => rfl

theorem isPlain_infinite (s : Bool) : (infinite s).IsPlain := by
  intro hplace
  have hpos := unitsBound_pos
  rw [place_infinite] at hplace
  have habs := natAbs_signedUnits s unitsBound
  omega

theorem nearestPlace_eq_zero {total : Int} (h : nearestPlace total = 0) : total = 0 := by
  unfold nearestPlace at h
  have habs := congrArg Int.natAbs h
  rw [natAbs_signedUnits, Int.natAbs_zero] at habs
  have hbound := unitsBound_pos
  by_contra htotal
  have hone : roundUnits 1 1 = 1 := roundUnits_one_of_short (shortSignificand_pow 0)
  have hround := roundUnits_mono 1 (show 1 ≤ total.natAbs by omega)
  omega

theorem isPlain_addUnits {s : Bool} {u : Nat} (hu : u = 0 → s = false) (t : Bool) (v : Nat) :
    (addUnits s u t v).IsPlain := by
  intro hplace
  rw [place_addUnits] at hplace
  have htotal := nearestPlace_eq_zero hplace
  have hsigns : (s && t) = false := by
    cases s with
    | false => rfl
    | true =>
        cases t with
        | false => rfl
        | true =>
            rw [signedUnits_true, signedUnits_true] at htotal
            exact absurd (hu (by omega)) (by decide)
  unfold addUnits
  dsimp only
  rw [htotal, if_pos rfl, hsigns, Int.natAbs_zero, roundUnits_zero]
  unfold ofUnits
  rw [dif_pos representable_zero]
  rfl

theorem addUnits_zero {s : Bool} {u : Nat} (hu : Representable u)
    (hplain : (finite s u hu).IsPlain) (t : Bool) : addUnits s u t 0 = finite s u hu := by
  have htotal : signedUnits s u + signedUnits t 0 = signedUnits s u := by
    cases t <;> simp [signedUnits]
  have hsign : (if signedUnits s u = 0 then s && t else decide (signedUnits s u < 0)) = s := by
    split
    · next hzero =>
        have hs : s = false := hplain hzero
        rw [hs]
        rfl
    · next hzero =>
        cases s with
        | false => simp [signedUnits]
        | true =>
            rw [signedUnits_true] at hzero ⊢
            rw [decide_eq_true_iff]
            omega
  unfold addUnits
  dsimp only
  rw [htotal, natAbs_signedUnits, roundUnits_one_of_short (representable_iff.mp hu).2, hsign]
  exact dif_pos hu

namespace IsPlain

variable {a b : Binary64}

theorem add (ha : a.IsPlain) (b : Binary64) : (a + b).IsPlain := by
  cases a with
  | nan => exact fun _ => rfl
  | infinite s =>
      cases b with
      | nan => exact fun _ => rfl
      | infinite t =>
          change (if s = t then infinite s else nan).IsPlain
          split
          · exact isPlain_infinite s
          · exact fun _ => rfl
      | finite t v hv => exact isPlain_infinite s
  | finite s u hu =>
      cases b with
      | nan => exact fun _ => rfl
      | infinite t => exact isPlain_infinite t
      | finite t v hv =>
          rw [finite_add_finite]
          apply isPlain_addUnits
          rintro rfl
          exact ha (by cases s <;> rfl)

theorem add_of_isZero (ha : a.IsPlain) (hb : b.isZero = true) : a + b = a := by
  obtain ⟨hnan, hplace⟩ := isZero_iff.mp hb
  cases b with
  | nan => exact absurd rfl hnan
  | infinite t => exact absurd hplace (by cases t <;> decide +kernel)
  | finite t v hv =>
      cases a with
      | nan => rfl
      | infinite s => rfl
      | finite s u hu =>
          obtain rfl : v = 0 := by
            rw [place_finite] at hplace
            have habs := natAbs_signedUnits t v
            omega
          rw [finite_add_finite]
          exact addUnits_zero hu ha t

end IsPlain

theorem sub_eq_add_neg (a b : Binary64) : a - b = a + b.neg := rfl

theorem place_sub {a b : Binary64} (ha : a.isFinite = true) (hb : b.isFinite = true) :
    (a - b).place = nearestPlace (a.place - b.place) := by
  rw [sub_eq_add_neg, place_add ha (by simpa using hb), place_neg, Int.sub_eq_add_neg]

theorem sub_ne_nan {a b : Binary64} (ha : a.isFinite = true) (hb : b ≠ nan) :
    a - b ≠ nan := by
  rw [sub_eq_add_neg, add_comm]
  exact add_ne_nan (neg_ne_nan hb) ha

theorem sub_le_sub {a a' b b' : Binary64} (ha : a.le a' = true) (hb : b'.le b = true)
    (hfinite : a.isFinite = true) (hfinite' : a'.isFinite = true) :
    (a - b).le (a' - b') = true := by
  rw [sub_eq_add_neg, sub_eq_add_neg, add_comm a, add_comm a']
  exact add_le_add (neg_le_neg hb) ha hfinite hfinite'

/-- The difference of two numbers not below zero lies between them and is finite. -/
theorem sub_mem {a b : Binary64} (ha : a.isFinite = true) (hb : b.isFinite = true)
    (hnonneg : 0 ≤ b.place) (hle : b.place ≤ a.place) :
    (a - b).isFinite = true ∧ 0 ≤ (a - b).place ∧ (a - b).place ≤ a.place := by
  have hplace := place_sub ha hb
  have hzero : nearestPlace 0 = 0 := nearestPlace_place zero_ne_nan
  have hlow : 0 ≤ (a - b).place := by
    rw [hplace, ← hzero]
    exact nearestPlace_mono (by omega)
  have hhigh : (a - b).place ≤ a.place := by
    rw [hplace]
    calc
      nearestPlace (a.place - b.place) ≤ nearestPlace a.place :=
        nearestPlace_mono (by omega)
      _ = a.place := nearestPlace_place (ne_nan_of_isFinite ha)
  refine ⟨isFinite_iff.mpr ⟨sub_ne_nan ha (ne_nan_of_isFinite hb), ?_⟩, hlow, hhigh⟩
  have hbound := (isFinite_iff.mp ha).2
  omega

theorem finite_mul_finite {s t : Bool} {u v : Nat} (hu : Representable u)
    (hv : Representable v) :
    finite s u hu * finite t v hv = ofUnits (s ^^ t) (roundUnits (u * v) unitsPerOne) := by
  change mul _ _ = _
  simp only [mul]

theorem mul_ne_nan {a b : Binary64} (ha : a.isFinite = true) (hb : b.isFinite = true) :
    a * b ≠ nan := by
  cases a with
  | finite s u hu =>
      cases b with
      | finite t v hv =>
          rw [finite_mul_finite]
          exact ofUnits_ne_nan _ _
      | infinite t => cases hb
      | nan => cases hb
  | infinite s => cases ha
  | nan => cases ha

theorem place_mul {a b : Binary64} (ha : a.isFinite = true) (hb : b.isFinite = true) :
    (a * b).place = signedUnits (a.negative ^^ b.negative)
      (min (roundUnits (a.place.natAbs * b.place.natAbs) unitsPerOne) unitsBound) := by
  cases a with
  | finite s u hu =>
      cases b with
      | finite t v hv =>
          rw [finite_mul_finite, place_ofUnits _ (shortSignificand_roundUnits _ _)]
          rw [place_finite, place_finite, natAbs_signedUnits, natAbs_signedUnits]
          rfl
      | infinite t => cases hb
      | nan => cases hb
  | infinite s => cases ha
  | nan => cases ha

theorem natAbs_place_mul {a b : Binary64} (ha : a.isFinite = true)
    (hb : b.isFinite = true) :
    (a * b).place.natAbs =
      min (roundUnits (a.place.natAbs * b.place.natAbs) unitsPerOne) unitsBound := by
  rw [place_mul ha hb, natAbs_signedUnits]

theorem natAbs_place_eq_zero {a : Binary64} (hneg : a.negative = true)
    (hnonneg : 0 ≤ a.place) : a.place.natAbs = 0 := by
  cases a with
  | finite s u hu =>
      cases hneg
      simp only [place_finite, signedUnits, if_true] at hnonneg ⊢
      omega
  | infinite s =>
      cases hneg
      simp only [place_infinite, signedUnits, if_true] at hnonneg ⊢
      omega
  | nan => rfl

theorem place_mul_of_nonneg {a b : Binary64} (ha : a.isFinite = true)
    (hb : b.isFinite = true) (hpa : 0 ≤ a.place) (hpb : 0 ≤ b.place) :
    (a * b).place =
      min (roundUnits (a.place.natAbs * b.place.natAbs) unitsPerOne) unitsBound := by
  have habs := natAbs_place_mul ha hb
  have hsigned : 0 ≤ (a * b).place := by
    rw [place_mul ha hb]
    cases hna : a.negative with
    | true => simp [natAbs_place_eq_zero hna hpa, roundUnits_zero, signedUnits]
    | false =>
        cases hnb : b.negative with
        | true => simp [natAbs_place_eq_zero hnb hpb, roundUnits_zero, signedUnits]
        | false => exact Int.natCast_nonneg _
  omega

theorem mul_le_mul_left {c a b : Binary64} (hc : c.isFinite = true) (hpc : 0 ≤ c.place)
    (ha : a.isFinite = true) (hb : b.isFinite = true) (hpa : 0 ≤ a.place)
    (hle : a.place ≤ b.place) : (c * a).le (c * b) = true := by
  refine le_iff.mpr ⟨mul_ne_nan hc ha, mul_ne_nan hc hb, ?_⟩
  rw [place_mul_of_nonneg hc ha hpc hpa, place_mul_of_nonneg hc hb hpc (by omega)]
  have hround := roundUnits_mono unitsPerOne
    (Nat.mul_le_mul_left c.place.natAbs (show a.place.natAbs ≤ b.place.natAbs by omega))
  omega

theorem mul_mem {c a : Binary64} (hc : c.isFinite = true) (hpc : 0 ≤ c.place)
    (hone : c.place ≤ unitsPerOne) (ha : a.isFinite = true) (hpa : 0 ≤ a.place) :
    (c * a).isFinite = true ∧ 0 ≤ (c * a).place ∧ (c * a).place ≤ a.place := by
  have hplace := place_mul_of_nonneg hc ha hpc hpa
  have hround : roundUnits (c.place.natAbs * a.place.natAbs) unitsPerOne ≤
      a.place.natAbs := by
    calc
      roundUnits (c.place.natAbs * a.place.natAbs) unitsPerOne ≤
          roundUnits (a.place.natAbs * unitsPerOne) unitsPerOne := by
        apply roundUnits_mono
        rw [Nat.mul_comm]
        exact Nat.mul_le_mul_left _ (by omega)
      _ = a.place.natAbs :=
        roundUnits_mul_right (representable_place ha).2 unitsPerOne_pos
  have hbound := (isFinite_iff.mp ha).2
  refine ⟨isFinite_iff.mpr ⟨mul_ne_nan hc ha, ?_⟩, ?_, ?_⟩ <;> omega

end ApneaScoring.Binary64
