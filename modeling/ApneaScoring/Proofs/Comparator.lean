import ApneaScoring.Proofs.Finiteness
import Mathlib.Order.Defs.Unbundled
import Mathlib.Algebra.Order.Group.Int

namespace ApneaScoring

theorem Binary64.order_eq_compare {a b : Binary64} (ha : a ≠ nan) (hb : b ≠ nan) :
    a.order b = compare a.place b.place := by
  unfold order
  simp only [lt_iff, ha, hb, ne_eq, not_false_eq_true, true_and]
  rcases lt_trichotomy a.place b.place with hlt | heq | hgt
  · rw [if_pos hlt, compare_lt_iff_lt.mpr hlt]
  · rw [heq, if_neg (lt_irrefl _), if_neg (lt_irrefl _), compare_eq_iff_eq.mpr rfl]
  · rw [if_neg (lt_asymm hgt), if_pos hgt, compare_gt_iff_gt.mpr hgt]

theorem Binary64.order_swap (a b : Binary64) : b.order a = (a.order b).swap := by
  unfold order
  cases hab : a.lt b with
  | true =>
      have hba : b.lt a = false := by
        cases hba : b.lt a with
        | false => rfl
        | true => exact absurd (lt_iff.mp hba).2.2 (lt_asymm (lt_iff.mp hab).2.2)
      rw [hba]
      rfl
  | false =>
      cases hba : b.lt a with
      | true => rfl
      | false => rfl

theorem Binary64.order_self (a : Binary64) : a.order a = .eq := by
  have hswap := order_swap a a
  cases horder : a.order a with
  | eq => rfl
  | lt =>
      rw [horder] at hswap
      cases hswap
  | gt =>
      rw [horder] at hswap
      cases hswap

theorem Binary64.order_ne_gt {a b : Binary64} (h : a.le b = true) : a.order b ≠ .gt := by
  obtain ⟨ha, hb, hle⟩ := le_iff.mp h
  rw [order_eq_compare ha hb]
  exact fun hgt => Int.not_lt.mpr hle (compare_gt_iff_gt.mp hgt)

theorem compareLex_append {xs ys : List Int} (h : xs.length = ys.length)
    (xs' ys' : List Int) :
    List.compareLex compare (xs ++ xs') (ys ++ ys') =
      (List.compareLex compare xs ys).then (List.compareLex compare xs' ys') := by
  induction xs generalizing ys with
  | nil =>
      cases ys with
      | nil => rfl
      | cons y ys => cases h
  | cons x xs ih =>
      cases ys with
      | nil => cases h
      | cons y ys =>
          rw [List.cons_append, List.cons_append, List.compareLex_cons_cons,
            List.compareLex_cons_cons, ih (Nat.succ.inj h), Ordering.then_assoc]

theorem compare_neg (x y : Int) : compare (-x) (-y) = (compare x y).swap := by
  rcases lt_trichotomy x y with hlt | heq | hgt
  · rw [compare_lt_iff_lt.mpr hlt, compare_gt_iff_gt.mpr (Int.neg_lt_neg hlt)]
    rfl
  · rw [heq, compare_eq_iff_eq.mpr rfl, compare_eq_iff_eq.mpr rfl]
    rfl
  · rw [compare_gt_iff_gt.mpr hgt, compare_lt_iff_lt.mpr (Int.neg_lt_neg hgt)]
    rfl

theorem compareLex_neg {xs ys : List Int} (h : xs.length = ys.length) :
    List.compareLex compare (xs.map (- ·)) (ys.map (- ·)) =
      (List.compareLex compare xs ys).swap := by
  induction xs generalizing ys with
  | nil =>
      cases ys with
      | nil => rfl
      | cons y ys => cases h
  | cons x xs ih =>
      cases ys with
      | nil => cases h
      | cons y ys =>
          rw [List.map_cons, List.map_cons, List.compareLex_cons_cons,
            List.compareLex_cons_cons, compare_neg, ih (Nat.succ.inj h),
            Ordering.swap_then]

/-- What a criterion looks at, an absent component counting as zero. -/
def Criterion.measure : Criterion → Standing → Binary64
  | final c, s => (s.final.get c).getD .zero
  | .deviation c, s => ((s.realized.get c).getD .zero - (s.announced.get c).getD .zero).abs

theorem Criterion.value_ne_nan (k : Criterion) {s : Standing} (h : s.IsFinite) :
    k.value s ≠ .nan := by
  cases k with
  | final c => exact Binary64.ne_nan_of_isFinite (Binary64.isFinite_orZero (h.final c))
  | deviation c =>
      exact Binary64.abs_ne_nan (Binary64.sub_ne_nan
        (Binary64.isFinite_orZero (h.realized c))
        (Binary64.ne_nan_of_isFinite (Binary64.isFinite_orZero (h.announced c))))

theorem Criterion.place_value (k : Criterion) {s : Standing} (h : s.IsFinite) :
    (k.value s).place = (k.measure s).place := by
  cases k with
  | final c => exact Binary64.place_orZero _
  | deviation c =>
      have hrealized := h.realized c
      have hannounced := h.announced c
      unfold value measure ApneaScoring.deviation
      dsimp only
      rw [Binary64.place_abs, Binary64.place_abs,
        Binary64.place_sub (Binary64.isFinite_orZero hrealized)
          (Binary64.isFinite_orZero hannounced),
        Binary64.place_sub (Binary64.isFinite_getD hrealized)
          (Binary64.isFinite_getD hannounced),
        Binary64.place_orZero, Binary64.place_orZero]

theorem Criterion.compare_eq (k : Criterion) {a b : Standing} (ha : a.IsFinite)
    (hb : b.IsFinite) :
    k.compare a b = Ord.compare (k.measure a).place (k.measure b).place := by
  unfold Criterion.compare
  rw [Binary64.order_eq_compare (k.value_ne_nan ha) (k.value_ne_nan hb),
    k.place_value ha, k.place_value hb]

namespace Direction

def turn : Direction → Int → Int
  | ascending, x => x
  | descending, x => -x

def within : Direction → Direction → Direction
  | ascending, d => d
  | descending, ascending => descending
  | descending, descending => ascending

theorem apply_swap (d : Direction) (o : Ordering) : d.apply o.swap = (d.apply o).swap := by
  cases d with
  | ascending => rfl
  | descending => rfl

theorem apply_eq_eq (d : Direction) {o : Ordering} : d.apply o = .eq ↔ o = .eq := by
  cases d with
  | ascending => exact Iff.rfl
  | descending => exact Ordering.swap_eq_eq

theorem turn_within (d e : Direction) (x : Int) : (d.within e).turn x = d.turn (e.turn x) := by
  cases d with
  | ascending => rfl
  | descending =>
      cases e with
      | ascending => rfl
      | descending => exact (Int.neg_neg x).symm

theorem compare_turn (d : Direction) (x y : Int) :
    compare (d.turn x) (d.turn y) = d.apply (compare x y) := by
  cases d with
  | ascending => rfl
  | descending => exact compare_neg x y

theorem compareLex_turn (d : Direction) {xs ys : List Int} (h : xs.length = ys.length) :
    List.compareLex compare (xs.map d.turn) (ys.map d.turn) =
      d.apply (List.compareLex compare xs ys) := by
  cases d with
  | ascending =>
      have hturn : turn ascending = id := rfl
      rw [hturn, List.map_id, List.map_id]
      rfl
  | descending => exact compareLex_neg h

end Direction

namespace Comparator

/-- The criteria in the order in which they decide, the chains inside opened up. -/
def criteria : Comparator → List (Direction × Criterion)
  | tie => []
  | thenBy earlier d k => earlier.criteria ++ [(d, k)]
  | thenChain earlier d inner =>
      earlier.criteria ++ inner.criteria.map fun link => (d.within link.1, link.2)

/-- What a chain looks at, as numbers of which the smaller ranks first. -/
def key (c : Comparator) (s : Standing) : List Int :=
  c.criteria.map fun link => link.1.turn (link.2.measure s).place

theorem length_key (c : Comparator) (a b : Standing) :
    (c.key a).length = (c.key b).length := by
  simp [key]

theorem key_thenBy (c : Comparator) (d : Direction) (k : Criterion) (s : Standing) :
    (c.thenBy d k).key s = c.key s ++ [d.turn (k.measure s).place] := by
  simp [key, criteria]

theorem key_thenChain (c : Comparator) (d : Direction) (inner : Comparator)
    (s : Standing) :
    (c.thenChain d inner).key s = c.key s ++ (inner.key s).map d.turn := by
  simp [key, criteria, Direction.turn_within]

theorem compare_eq_compareLex (c : Comparator) {a b : Standing} (ha : a.IsFinite)
    (hb : b.IsFinite) :
    c.compare a b = List.compareLex Ord.compare (c.key a) (c.key b) := by
  induction c with
  | tie => rfl
  | thenBy earlier d k ih =>
      rw [compare_thenBy, ih, key_thenBy, key_thenBy,
        compareLex_append (length_key earlier a b), List.compareLex_cons_cons,
        Direction.compare_turn, k.compare_eq ha hb]
      simp [List.compareLex_nil_nil]
  | thenChain earlier d inner ihEarlier ihInner =>
      rw [compare_thenChain, ihEarlier, ihInner, key_thenChain, key_thenChain,
        compareLex_append (length_key earlier a b),
        Direction.compareLex_turn d (length_key inner a b)]

theorem compare_congr (c : Comparator) {a b a' b' : Standing}
    (h : ∀ link ∈ c.criteria, link.2.compare a b = link.2.compare a' b') :
    c.compare a b = c.compare a' b' := by
  induction c with
  | tie => rfl
  | thenBy earlier d k ih =>
      rw [criteria, List.forall_mem_append, List.forall_mem_singleton] at h
      rw [compare_thenBy, compare_thenBy, ih h.1, h.2]
  | thenChain earlier d inner ihEarlier ihInner =>
      rw [criteria, List.forall_mem_append, List.forall_mem_map] at h
      rw [compare_thenChain, compare_thenChain, ihEarlier h.1, ihInner h.2]

theorem compare_eq_eq_iff (c : Comparator) {a b : Standing} :
    c.compare a b = .eq ↔ ∀ link ∈ c.criteria, link.2.compare a b = .eq := by
  induction c with
  | tie => simp [criteria]
  | thenBy earlier d k ih =>
      rw [compare_thenBy, Ordering.then_eq_eq, d.apply_eq_eq, ih, criteria,
        List.forall_mem_append, List.forall_mem_singleton]
  | thenChain earlier d inner ihEarlier ihInner =>
      rw [compare_thenChain, Ordering.then_eq_eq, d.apply_eq_eq, ihEarlier, ihInner, criteria,
        List.forall_mem_append, List.forall_mem_map]

theorem compare_swap (c : Comparator) (a b : Standing) :
    c.compare b a = (c.compare a b).swap := by
  induction c with
  | tie => rfl
  | thenBy earlier d k ih =>
      rw [compare_thenBy, compare_thenBy, ih, Ordering.swap_then, ← d.apply_swap]
      exact congrArg _ (congrArg d.apply (Binary64.order_swap _ _))
  | thenChain earlier d inner ihEarlier ihInner =>
      rw [compare_thenChain, compare_thenChain, ihEarlier, ihInner, Ordering.swap_then,
        d.apply_swap]

theorem compare_trans (c : Comparator) {a b d : Standing} (ha : a.IsFinite)
    (hb : b.IsFinite) (hd : d.IsFinite) (hab : (c.compare a b).isLE = true)
    (hbd : (c.compare b d).isLE = true) : (c.compare a d).isLE = true := by
  rw [c.compare_eq_compareLex ha hb] at hab
  rw [c.compare_eq_compareLex hb hd] at hbd
  rw [c.compare_eq_compareLex ha hd]
  exact Std.TransCmp.isLE_trans hab hbd

end Comparator

def outcome : Ordering → Int
  | .lt => -1
  | .eq => 0
  | .gt => 1

theorem outcome_swap (o : Ordering) : outcome o.swap = -outcome o := by
  cases o <;> rfl

theorem outcome_nonpos_iff {o : Ordering} : outcome o ≤ 0 ↔ o.isLE = true := by
  cases o <;> simp [outcome]

abbrev FiniteStanding := {s : Standing // s.IsFinite}

namespace Comparator

theorem outcome_trans (c : Comparator) (a b d : FiniteStanding)
    (hab : outcome (c.compare a b) ≤ 0) (hbd : outcome (c.compare b d) ≤ 0) :
    outcome (c.compare a d) ≤ 0 := by
  rw [outcome_nonpos_iff] at *
  exact c.compare_trans a.2 b.2 d.2 hab hbd

theorem outcome_comm (c : Comparator) (a b : FiniteStanding) :
    outcome (c.compare b a) = -outcome (c.compare a b) := by
  rw [c.compare_swap a b, outcome_swap]

theorem tie_equivalence (c : Comparator) :
    Equivalence fun a b : FiniteStanding => outcome (c.compare a b) = 0 where
  refl a := by
    have hcomm := c.outcome_comm a a
    omega
  symm {a b} hab := by
    have hcomm := c.outcome_comm a b
    omega
  trans {a b d} hab hbd := by
    have hle := c.outcome_trans a b d (by omega) (by omega)
    have hge := c.outcome_trans d b a
      (by rw [c.outcome_comm]; omega) (by rw [c.outcome_comm]; omega)
    rw [c.outcome_comm] at hge
    omega

theorem before_isStrictWeakOrder (c : Comparator) :
    IsStrictWeakOrder FiniteStanding fun a b => outcome (c.compare a b) < 0 where
  irrefl a := by
    have hcomm := c.outcome_comm a a
    omega
  trans a b d hab hbd := by
    by_contra hnot
    have hdb := c.outcome_trans d a b (by rw [c.outcome_comm]; omega) (by omega)
    rw [c.outcome_comm] at hdb
    omega
  incomp_trans a b d hab hbd := by
    have hcomm := c.outcome_comm a b
    have hcomm' := c.outcome_comm b d
    have htrans := c.tie_equivalence.trans (x := a) (y := b) (z := d) (by omega) (by omega)
    have hcomm'' := c.outcome_comm a d
    omega

/-- Every chain is a consistent ordering of the standings of finite numbers. -/
theorem compare_consistent (c : Comparator) :
    (∀ a b : FiniteStanding, outcome (c.compare a b) = -1 ∨
      outcome (c.compare a b) = 0 ∨ outcome (c.compare a b) = 1) ∧
    (∀ a b : FiniteStanding, outcome (c.compare b a) = -outcome (c.compare a b)) ∧
    (∀ a b d : FiniteStanding, outcome (c.compare a b) ≤ 0 →
      outcome (c.compare b d) ≤ 0 → outcome (c.compare a d) ≤ 0) ∧
    (Equivalence fun a b : FiniteStanding => outcome (c.compare a b) = 0) ∧
    (IsStrictWeakOrder FiniteStanding fun a b => outcome (c.compare a b) < 0) ∧
    ∀ a b : FiniteStanding,
      c.compare a b = List.compareLex Ord.compare (c.key a) (c.key b) := by
  refine ⟨?_, c.outcome_comm, c.outcome_trans, c.tie_equivalence,
    c.before_isStrictWeakOrder, fun a b => c.compare_eq_compareLex a.2 b.2⟩
  intro a b
  cases c.compare a b with
  | lt => exact .inl rfl
  | eq => exact .inr (.inl rfl)
  | gt => exact .inr (.inr rfl)

end Comparator

end ApneaScoring
