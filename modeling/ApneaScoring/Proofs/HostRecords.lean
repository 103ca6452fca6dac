import ApneaScoring.Proofs.Comparator
import ApneaScoring.Rule.Federations

/-! A deviation is the difference of two numbers that were read, and one infinity less itself is
no number again: it ties with whatever it is compared to. -/

namespace ApneaScoring

theorem bind_eq_ok {α β ε : Type} {result : Except ε α} {next : α → Except ε β} {b : β} :
    result >>= next = .ok b ↔ ∃ a, result = .ok a ∧ next a = .ok b := by
  cases result <;> simp [bind, Except.bind]

theorem Datum.measure?_ne_nan {d : Datum} {x : Option Binary64} (h : d.measure? = .ok x) :
    x ≠ some .nan := by
  unfold measure? at h
  cases hnumber : d.number? with
  | error e =>
      rw [hnumber] at h
      cases h
  | ok y =>
      rw [hnumber] at h
      obtain rfl := Except.ok.inj h
      intro hnan
      exact absurd (Option.filter_eq_some_iff.mp hnan).2 (by decide)

theorem Datum.measure?_float {x : Binary64} (h : x ≠ .nan) :
    (Datum.float x).measure? = .ok (some x) := by
  have hkept : (!x.isNaN) = true := by
    cases x with
    | nan => exact absurd rfl h
    | _ => rfl
  exact congrArg Except.ok (Option.filter_some_pos hkept)

namespace Performance

variable {p : Performance} {record : Datum}

theorem ofRecord_eq_ok : ofRecord record = .ok p ↔
    ∀ c : Component, ((record.get? c.key).getD .null).measure? = .ok (p.get c) := by
  have hall : (∀ c : Component, ((record.get? c.key).getD .null).measure? = .ok (p.get c)) ↔
      ∀ c ∈ Component.all, ((record.get? c.key).getD .null).measure? = .ok (p.get c) := by
    simp
  rw [hall]
  simp only [ofRecord, bind_eq_ok, Component.all, List.forall_mem_cons, List.not_mem_nil]
  constructor
  · rintro ⟨duration, hduration, depth, hdepth, distance, hdistance, points, hpoints, h⟩
    obtain rfl := Except.ok.inj h
    exact ⟨hduration, hdepth, hdistance, hpoints, by simp⟩
  · rintro ⟨hduration, hdepth, hdistance, hpoints, -⟩
    exact ⟨_, hduration, _, hdepth, _, hdistance, _, hpoints, rfl⟩

/-- Whether some host record is read as the performance. -/
def IsRead (p : Performance) : Prop :=
  ∃ record, ofRecord record = .ok p

def host (p : Performance) : Datum :=
  .map (Component.all.map fun c => (.text c.key, (p.get c).elim .null .float))

theorem get?_host (p : Performance) (c : Component) :
    p.host.get? c.key = some ((p.get c).elim .null .float) := by
  cases c <;> simp [host, Component.all, Component.key, Datum.get?]

theorem isRead_iff : p.IsRead ↔ ∀ c, p.get c ≠ some .nan := by
  constructor
  · rintro ⟨record, h⟩ c
    exact Datum.measure?_ne_nan (ofRecord_eq_ok.mp h c)
  · intro h
    refine ⟨p.host, ofRecord_eq_ok.mpr fun c => ?_⟩
    rw [get?_host, Option.getD_some]
    cases hc : p.get c with
    | none => rfl
    | some x =>
        apply Datum.measure?_float
        rintro rfl
        exact h c hc

theorem isRead_empty : empty.IsRead :=
  isRead_iff.mpr fun c => by simp

theorem IsRead.set (hp : p.IsRead) (c : Component) {value : Option Binary64}
    (hvalue : value ≠ some .nan) : (p.set c value).IsRead := by
  rw [isRead_iff] at hp ⊢
  intro other
  by_cases hother : other = c
  · rw [hother, get_set_self]
    exact hvalue
  · rw [get_set_of_ne _ _ hother]
    exact hp other

end Performance

structure Standing.IsRead (s : Standing) : Prop where
  announced : s.announced.IsRead
  realized : s.realized.IsRead
  final : s.final.IsRead

abbrev ReadStanding := {s : Standing // s.IsRead}

namespace Binary64

variable {a b : Binary64}

theorem order_nan_left (d : Binary64) : nan.order d = .eq := by
  cases d <;> rfl

theorem order_nan_right (d : Binary64) : d.order nan = .eq := by
  rw [order_swap nan d, order_nan_left]
  rfl

theorem order_congr (ha : a ≠ nan) (hb : b ≠ nan) (h : a.order b = .eq) (d : Binary64) :
    a.order d = b.order d := by
  rw [order_eq_compare ha hb, compare_eq_iff_eq] at h
  by_cases hd : d = nan
  · rw [hd, order_nan_right, order_nan_right]
  · rw [order_eq_compare ha hd, order_eq_compare hb hd, h]

theorem order_eq_trans {d : Binary64} (hb : b ≠ nan) (hab : a.order b = .eq)
    (hbd : b.order d = .eq) : a.order d = .eq := by
  by_cases ha : a = nan
  · rw [ha, order_nan_left]
  · rw [order_congr ha hb hab, hbd]

theorem abs_eq_nan_iff : a.abs = nan ↔ a = nan := by
  cases a <;> simp [abs]

theorem sub_eq_nan_iff (ha : a ≠ nan) (hb : b ≠ nan) :
    a - b = nan ↔ ∃ negative, a = infinite negative ∧ b = infinite negative := by
  cases a with
  | nan => exact absurd rfl ha
  | finite s u hu =>
      refine iff_of_false (sub_ne_nan rfl hb) ?_
      rintro ⟨negative, h, -⟩
      cases h
  | infinite s =>
      cases b with
      | nan => exact absurd rfl hb
      | finite t v hv =>
          have hsum : infinite s - finite t v hv = infinite s := rfl
          simp [hsum]
      | infinite t =>
          have hsum : infinite s - infinite t = if s = !t then infinite s else nan := rfl
          rw [hsum]
          cases s <;> cases t <;> simp

theorem orZero_eq_infinite_iff {x : Option Binary64} {negative : Bool} :
    orZero x = infinite negative ↔ x = some (infinite negative) := by
  cases x with
  | none => simp [orZero, zero]
  | some x =>
      unfold orZero
      dsimp only
      split
      · next hzero =>
          have hplace := (isZero_iff.mp hzero).2
          simp only [zero, reduceCtorEq, Option.some.injEq, false_iff]
          rintro rfl
          exact absurd hplace (by cases negative <;> decide +kernel)
      · rw [Option.some.injEq]

end Binary64

namespace Standing

variable {s : Standing} {c : Component}

/-- One and the same infinity was announced and realized. -/
def IsEndless (s : Standing) (c : Component) : Prop :=
  ∃ negative, s.announced.get c = some (.infinite negative) ∧
    s.realized.get c = some (.infinite negative)

theorem IsRead.deviation_eq_nan_iff (hs : s.IsRead) :
    deviation c s = .nan ↔ s.IsEndless c := by
  have hrealized := Binary64.orZero_ne_nan (Performance.isRead_iff.mp hs.realized c)
  have hannounced := Binary64.orZero_ne_nan (Performance.isRead_iff.mp hs.announced c)
  rw [deviation, Binary64.abs_eq_nan_iff, Binary64.sub_eq_nan_iff hrealized hannounced]
  simp only [Binary64.orZero_eq_infinite_iff, IsEndless, and_comm]

def unannounced (s : Standing) (c : Component) (value : Option Binary64) : Standing :=
  { s with announced := s.announced.set c none, realized := s.realized.set c value }

theorem deviation_unannounced (s : Standing) (c : Component) (value : Option Binary64) :
    deviation c (s.unannounced c value) = (Binary64.orZero value - .zero).abs := by
  unfold deviation unannounced
  dsimp only
  rw [Performance.get_set_self, Performance.get_set_self]
  rfl

theorem value_unannounced {criterion : Criterion} (hne : criterion ≠ .deviation c)
    (value : Option Binary64) : criterion.value (s.unannounced c value) = criterion.value s := by
  cases criterion with
  | final other => rfl
  | deviation other =>
      have hother : other ≠ c := fun heq => hne (congrArg _ heq)
      unfold Criterion.value deviation unannounced
      dsimp only
      rw [Performance.get_set_of_ne _ _ hother, Performance.get_set_of_ne _ _ hother]

theorem IsRead.unannounced (hs : s.IsRead) {value : Option Binary64} (hvalue : value ≠ some .nan) :
    (s.unannounced c value).IsRead :=
  ⟨hs.announced.set c (by simp), hs.realized.set c hvalue, hs.final⟩

end Standing

namespace Comparator

/-- Each deviation that the chain looks at is a number. -/
def Decides (comparator : Comparator) (s : Standing) : Prop :=
  ∀ direction c, (direction, Criterion.deviation c) ∈ comparator.criteria → ¬ s.IsEndless c

variable {comparator : Comparator} {a b d : Standing}

theorem Decides.value_ne_nan (h : comparator.Decides b) (hb : b.IsRead) :
    ∀ link ∈ comparator.criteria, link.2.value b ≠ .nan := by
  rintro ⟨direction, criterion⟩ hlink
  cases criterion with
  | final c => exact Binary64.orZero_ne_nan (Performance.isRead_iff.mp hb.final c)
  | deviation c =>
      intro hnan
      exact h direction c hlink (hb.deviation_eq_nan_iff.mp hnan)

theorem Decides.tie_trans (h : comparator.Decides b) (hb : b.IsRead)
    (hab : comparator.compare a b = .eq) (hbd : comparator.compare b d = .eq) :
    comparator.compare a d = .eq := by
  rw [compare_eq_eq_iff] at hab hbd ⊢
  intro link hlink
  exact Binary64.order_eq_trans (h.value_ne_nan hb link hlink) (hab link hlink) (hbd link hlink)

theorem Decides.compare_congr (ha : comparator.Decides a) (hreada : a.IsRead)
    (hb : comparator.Decides b) (hreadb : b.IsRead) (hab : comparator.compare a b = .eq)
    (d : Standing) : comparator.compare a d = comparator.compare b d := by
  rw [compare_eq_eq_iff] at hab
  apply Comparator.compare_congr
  intro link hlink
  exact Binary64.order_congr (ha.value_ne_nan hreada link hlink)
    (hb.value_ne_nan hreadb link hlink) (hab link hlink) _

/-- A standing of which a deviation is no number ties with two that do not tie. -/
theorem exists_not_tie (hb : b.IsRead) (h : ¬ comparator.Decides b) :
    ∃ near far : ReadStanding, comparator.compare near b = .eq ∧
      comparator.compare b far = .eq ∧ comparator.compare near far ≠ .eq := by
  unfold Decides at h
  push Not at h
  obtain ⟨direction, c, hlink, hendless⟩ := h
  -- Only the deviation that is no number is changed, so whatever is realized ties with `b`.
  have htie : ∀ value, comparator.compare (b.unannounced c value) b = .eq := by
    intro value
    rw [compare_eq_eq_iff]
    rintro ⟨other, criterion⟩ -
    unfold Criterion.compare
    by_cases hsame : criterion = .deviation c
    · have hnan : criterion.value b = .nan := by
        rw [hsame]
        exact hb.deviation_eq_nan_iff.mpr hendless
      rw [hnan, Binary64.order_nan_right]
    · rw [Standing.value_unannounced hsame, Binary64.order_self]
  refine ⟨⟨b.unannounced c none, hb.unannounced (by simp)⟩,
    ⟨b.unannounced c (some .one), hb.unannounced (by decide +kernel)⟩, htie none, ?_, ?_⟩
  · rw [compare_swap, htie]
    rfl
  · intro heq
    have hdeviations := (compare_eq_eq_iff comparator).mp heq _ hlink
    unfold Criterion.compare Criterion.value at hdeviations
    dsimp only at hdeviations
    rw [Standing.deviation_unannounced, Standing.deviation_unannounced] at hdeviations
    exact absurd hdeviations (by decide +kernel)

end Comparator

namespace Federations

theorem exists_deviation {r : Rule} (hr : r ∈ all) :
    ∃ c, (Direction.ascending, Criterion.deviation c) ∈ r.comparator.criteria := by
  simp only [all, List.mem_cons, List.not_mem_nil, or_false] at hr
  rcases hr with rfl | rfl | rfl | rfl | rfl | rfl | rfl
  · exact ⟨.duration, by decide⟩
  · exact ⟨.distance, by decide⟩
  · exact ⟨.depth, by decide⟩
  · exact ⟨.duration, by decide⟩
  · exact ⟨.distance, by decide⟩
  · exact ⟨.depth, by decide⟩
  · exact ⟨.distance, by decide⟩

theorem exists_not_decides {r : Rule} (hr : r ∈ all) :
    ∃ b : ReadStanding, ¬ r.comparator.Decides b := by
  obtain ⟨c, hlink⟩ := exists_deviation hr
  have hread : (Performance.only c (some (.infinite false))).IsRead :=
    Performance.isRead_empty.set c (by simp)
  have hget : (Performance.only c (some (.infinite false))).get c = some (.infinite false) :=
    Performance.get_set_self _ _ _
  refine ⟨⟨{ announced := .only c (some (.infinite false))
             realized := .only c (some (.infinite false)) },
    hread, hread, Performance.isRead_empty⟩, fun h => ?_⟩
  exact h _ c hlink ⟨false, hget, hget⟩

end Federations

namespace Comparator

/-- Ties pass through a standing just when its deviations are numbers; of two such standings
that tie, each compares to every other as the other does. No federation rule is without a
standing of the other kind. -/
theorem compare_read (comparator : Comparator) (b : ReadStanding) :
    ((∀ a d : ReadStanding, comparator.compare a b = .eq → comparator.compare b d = .eq →
      comparator.compare a d = .eq) ↔ comparator.Decides b) ∧
    (comparator.Decides b → ∀ a : ReadStanding, comparator.Decides a →
      comparator.compare a b = .eq → ∀ d : ReadStanding,
        comparator.compare a d = comparator.compare b d) ∧
    ∀ r ∈ Federations.all, r.comparator = comparator →
      ∃ endless : ReadStanding, ¬ comparator.Decides endless := by
  refine ⟨⟨?_, ?_⟩, ?_, ?_⟩
  · intro htrans
    by_contra hnot
    obtain ⟨near, far, hnear, hfar, hne⟩ := exists_not_tie b.2 hnot
    exact hne (htrans near far hnear hfar)
  · intro h a d hab hbd
    exact h.tie_trans b.2 hab hbd
  · intro hb a ha hab d
    exact ha.compare_congr a.2 hb b.2 hab d
  · rintro r hr rfl
    exact Federations.exists_not_decides hr

def distanceOf (value : Datum) : Datum :=
  .map [(.text "distance", value)]

def swim (announced realized : Binary64) : Standing where
  announced := { distance := some announced }
  realized := { distance := some realized }
  final := { points := some (.ofDecimal false 50 0) }

def closeSwim : Standing := swim (.ofDecimal false 100 0) (.ofDecimal false 99 0)
def wideSwim : Standing := swim (.ofDecimal false 100 0) (.ofDecimal false 98 0)
def endlessSwim : Standing := swim (.infinite false) (.infinite false)

/-- A swim of one metre off and a swim of two, of which the first is ahead, both tie with one of
an infinity announced and realized, and all three are read from host records. -/
theorem endlessSwim_ties :
    Performance.ofRecord (distanceOf (.text "inf")) = .ok endlessSwim.announced ∧
    Performance.ofRecord (distanceOf (.text "inf")) = .ok endlessSwim.realized ∧
    closeSwim.IsRead ∧ endlessSwim.IsRead ∧ wideSwim.IsRead ∧
    Federations.Aida.dyn.comparator.compare closeSwim endlessSwim = .eq ∧
    Federations.Aida.dyn.comparator.compare endlessSwim closeSwim = .eq ∧
    Federations.Aida.dyn.comparator.compare endlessSwim wideSwim = .eq ∧
    Federations.Aida.dyn.comparator.compare closeSwim wideSwim = .lt := by
  have hread : ∀ {announced realized : Binary64}, announced ≠ .nan → realized ≠ .nan →
      (swim announced realized).IsRead := by
    intro announced realized hannounced hrealized
    refine ⟨?_, ?_, ?_⟩
    · exact Performance.isRead_empty.set .distance (by simpa using hannounced)
    · exact Performance.isRead_empty.set .distance (by simpa using hrealized)
    · exact Performance.isRead_empty.set .points (by decide +kernel)
  refine ⟨by decide +kernel, by decide +kernel, hread (by decide +kernel) (by decide +kernel),
    hread (by simp) (by simp), hread (by decide +kernel) (by decide +kernel), ?_, ?_, ?_, ?_⟩
  · decide +kernel
  · decide +kernel
  · decide +kernel
  · decide +kernel

end Comparator

end ApneaScoring
