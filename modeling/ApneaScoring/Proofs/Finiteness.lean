import ApneaScoring.Comparator
import ApneaScoring.Proofs.Number.Order

namespace ApneaScoring

def Performance.IsFinite (p : Performance) : Prop :=
  ∀ c : Component, ∀ x ∈ p.get c, x.isFinite = true

theorem Performance.isFinite_iff {p : Performance} :
    p.IsFinite ↔ Component.all.all (fun c => (p.get c).all (·.isFinite)) = true := by
  rw [List.all_eq_true]
  constructor
  · intro h c _
    exact Option.all_eq_true_iff_get _ _ |>.mpr fun hc =>
      h c _ (Option.get_mem hc)
  · intro h c x hx
    have hc := h c (Component.mem_all c)
    rw [Option.mem_def.mp hx] at hc
    exact hc

instance (p : Performance) : Decidable p.IsFinite :=
  decidable_of_iff _ Performance.isFinite_iff.symm

structure Standing.IsFinite (s : Standing) : Prop where
  announced : s.announced.IsFinite
  realized : s.realized.IsFinite
  final : s.final.IsFinite

theorem Standing.isFinite_iff {s : Standing} :
    s.IsFinite ↔ s.announced.IsFinite ∧ s.realized.IsFinite ∧ s.final.IsFinite :=
  ⟨fun h => ⟨h.announced, h.realized, h.final⟩, fun h => ⟨h.1, h.2.1, h.2.2⟩⟩

instance (s : Standing) : Decidable s.IsFinite :=
  decidable_of_iff _ Standing.isFinite_iff.symm

namespace Binary64

theorem position?_orZero (x : Option Binary64) :
    (orZero x).position? = (x.getD zero).position? := by
  cases x with
  | none => rfl
  | some x =>
      unfold orZero
      dsimp only
      split
      · next h =>
          obtain ⟨hnan, hplace⟩ := isZero_iff.mp h
          rw [Option.getD_some, position?_eq_place hnan, hplace]
          rfl
      · rfl

theorem place_orZero (x : Option Binary64) : (orZero x).place = (x.getD zero).place := by
  unfold place
  rw [position?_orZero]

theorem lt_orZero (x y : Option Binary64) :
    (orZero x).lt (orZero y) = (x.getD zero).lt (y.getD zero) := by
  unfold lt
  rw [position?_orZero, position?_orZero]

theorem le_orZero (x y : Option Binary64) :
    (orZero x).le (orZero y) = (x.getD zero).le (y.getD zero) := by
  unfold le
  rw [position?_orZero, position?_orZero]

theorem orZero_ne_nan {x : Option Binary64} (h : x ≠ some nan) : orZero x ≠ nan := by
  cases x with
  | none => exact zero_ne_nan
  | some x =>
      unfold orZero
      dsimp only
      split
      · exact zero_ne_nan
      · rintro rfl
        exact h rfl

theorem isFinite_orZero {x : Option Binary64} (h : ∀ y ∈ x, y.isFinite = true) :
    (orZero x).isFinite = true := by
  cases x with
  | none => rfl
  | some x =>
      unfold orZero
      dsimp only
      split
      · rfl
      · exact h x rfl

theorem isFinite_getD {x : Option Binary64} (h : ∀ y ∈ x, y.isFinite = true) :
    (x.getD zero).isFinite = true := by
  cases x with
  | none => rfl
  | some x => exact h x rfl

/-- A finite number that is not below zero. -/
def IsMeasure (x : Binary64) : Prop :=
  x.isFinite = true ∧ zero.le x = true

instance (x : Binary64) : Decidable x.IsMeasure := by
  unfold IsMeasure
  infer_instance

theorem isMeasure_iff {x : Binary64} :
    x.IsMeasure ↔ x.isFinite = true ∧ 0 ≤ x.place := by
  unfold IsMeasure
  rw [le_iff]
  constructor
  · intro h
    exact ⟨h.1, h.2.2.2⟩
  · intro h
    exact ⟨h.1, zero_ne_nan, ne_nan_of_isFinite h.1, h.2⟩

theorem isMeasure_zero : zero.IsMeasure :=
  isMeasure_iff.mpr ⟨rfl, Int.le_refl 0⟩

theorem isMeasure_orZero {x : Option Binary64} (h : ∀ y ∈ x, y.IsMeasure) :
    (orZero x).IsMeasure := by
  rw [isMeasure_iff, place_orZero]
  refine ⟨isFinite_orZero fun y hy => (h y hy).1, ?_⟩
  cases x with
  | none => exact Int.le_refl 0
  | some x => exact (isMeasure_iff.mp (h x rfl)).2

namespace IsMeasure

variable {a b x : Binary64}

theorem ne_nan (hx : x.IsMeasure) : x ≠ nan :=
  ne_nan_of_isFinite hx.1

theorem forall_mem (hx : x.IsMeasure) {component : Option Binary64}
    (h : component = some x) : ∀ y ∈ component, y.IsMeasure := by
  intro y hy
  rw [h] at hy
  exact Option.some.inj hy ▸ hx

theorem sub (ha : a.IsMeasure) (hb : b.IsMeasure) (hshort : ¬ a.le b = true) :
    (a - b).IsMeasure := by
  have hlt := (not_le_iff_lt ha.ne_nan hb.ne_nan).mp hshort
  rw [isMeasure_iff] at *
  obtain ⟨hfinite, hnonneg, -⟩ :=
    sub_mem ha.1 hb.1 hb.2 (Int.le_of_lt (lt_iff.mp hlt).2.2)
  exact ⟨hfinite, hnonneg⟩

end IsMeasure

theorem isFinite_of_le {a b : Binary64} (hnonneg : zero.le a = true) (hle : a.le b = true)
    (hb : b.isFinite = true) : a.isFinite = true := by
  rw [le_iff, place_zero] at hnonneg
  rw [le_iff] at hle
  have hbound := (isFinite_iff.mp hb).2
  refine isFinite_iff.mpr ⟨hle.1, ?_⟩
  omega

end Binary64

def Performance.IsMeasured (p : Performance) : Prop :=
  ∀ c : Component, ∀ x ∈ p.get c, x.IsMeasure

instance (p : Performance) : Decidable p.IsMeasured :=
  decidable_of_iff (∀ c ∈ Component.all, ∀ x ∈ p.get c, x.IsMeasure)
    ⟨fun h c => h c (Component.mem_all c), fun h c _ => h c⟩

end ApneaScoring
