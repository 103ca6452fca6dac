import ApneaScoring.Proofs.Comparator
import ApneaScoring.Proofs.Sorting

/-! Ranking only ever compares an item with the one before it. As the items are sorted, the rank
that comes of it is one more than the number of items strictly ahead in the whole list. -/

namespace ApneaScoring

namespace Ranking

variable {α : Type _} {before : α → α → Bool} {domain : α → Prop}

/-- Of a sorted list just the items before the first of a class of ties are ahead of it. -/
theorem countP_of_first (h : StrictWeakOn before domain) {done rest : List α} {x : α}
    (hx : domain x) (hordered : Ordered before (done ++ x :: rest))
    (hahead : ∀ y ∈ done, before y x = true) :
    (done ++ x :: rest).countP (before · x) = done.length := by
  have hrest : (x :: rest).countP (before · x) = 0 := by
    rw [List.countP_eq_zero]
    intro y hy
    rw [Bool.not_eq_true]
    rcases List.mem_cons.mp hy with rfl | hy
    · exact h.irrefl hx
    · exact List.rel_of_pairwise_cons (List.pairwise_append.mp hordered).2.1 hy
  rw [List.countP_append, hrest, List.countP_eq_length.mpr hahead, Nat.add_zero]

theorem countP_of_tied (h : StrictWeakOn before domain) {items : List α} {x y : α}
    (hitems : ∀ z ∈ items, domain z) (hx : domain x) (hy : domain y)
    (htied : tied before x y = true) :
    items.countP (before · x) = items.countP (before · y) := by
  apply List.countP_congr
  intro z hz
  rw [h.before_eq_of_tied hx hy (hitems z hz) htied]

theorem next_rank (h : StrictWeakOn before domain) {done rest : List α} {previous x : α}
    (hdomain : ∀ y ∈ done ++ previous :: x :: rest, domain y)
    (hordered : Ordered before (done ++ previous :: x :: rest)) :
    (if tied before previous x then
        1 + (done ++ previous :: x :: rest).countP (before · previous)
      else done.length + 1 + 1) =
      1 + (done ++ previous :: x :: rest).countP (before · x) := by
  have hprevious := hdomain previous (by simp)
  have hx := hdomain x (by simp)
  cases htied : tied before previous x with
  | true =>
      rw [if_pos rfl, countP_of_tied h hdomain hprevious hx htied]
  | false =>
      -- The previous item is then strictly ahead, and so is all that stands before it.
      obtain ⟨-, hlater, hacross⟩ := List.pairwise_append.mp hordered
      have hnot : before x previous = false :=
        List.rel_of_pairwise_cons hlater List.mem_cons_self
      have hpx : before previous x = true := by
        unfold tied at htied
        rw [hnot] at htied
        simpa using htied
      have hahead : ∀ y ∈ done ++ [previous], before y x = true := by
        intro y hy
        rcases List.mem_append.mp hy with hy | hy
        · exact h.before_of_not_of_before (hdomain y (List.mem_append_left _ hy)) hprevious
            hx (hacross y hy previous List.mem_cons_self) hpx
        · exact List.mem_singleton.mp hy ▸ hpx
      rw [List.append_cons] at hordered ⊢
      rw [countP_of_first h hx hordered hahead, List.length_append, List.length_singleton,
        if_neg Bool.false_ne_true, Nat.add_comm]

theorem rankFrom_eq (h : StrictWeakOn before domain) {done rest : List α} {previous : α}
    (hdomain : ∀ y ∈ done ++ previous :: rest, domain y)
    (hordered : Ordered before (done ++ previous :: rest)) :
    rankFrom (tied before) (done.length + 1)
        (1 + (done ++ previous :: rest).countP (before · previous), previous) rest =
      rest.map fun x => (1 + (done ++ previous :: rest).countP (before · x), x) := by
  induction rest generalizing done previous with
  | nil => rfl
  | cons x rest ih =>
      unfold rankFrom
      dsimp only
      rw [next_rank h hdomain hordered]
      rw [List.append_cons] at hdomain hordered ⊢
      have hrest := ih hdomain hordered
      rw [List.length_append, List.length_singleton] at hrest
      rw [hrest, List.map_cons]

theorem rank_eq (h : StrictWeakOn before domain) {items : List α}
    (hdomain : ∀ y ∈ items, domain y) (hordered : Ordered before items) :
    rank (tied before) items = items.map fun x => (1 + items.countP (before · x), x) := by
  cases items with
  | nil => rfl
  | cons x rest =>
      rw [← List.nil_append (x :: rest)] at hdomain hordered ⊢
      have hfirst := countP_of_first h (hdomain x List.mem_cons_self) hordered (by simp)
      have hrest := rankFrom_eq h hdomain hordered
      rw [hfirst] at hrest
      rw [List.nil_append, rank, List.map_cons, ← List.nil_append (x :: rest), hfirst]
      exact congrArg _ hrest

example : rank (tied fun x y : Nat => y < x) [50, 30, 30, 10] =
    [(1, 50), (2, 30), (2, 30), (4, 10)] := by decide

section

variable {α β : Type _} (before : β → β → Bool) (f : α → β)

theorem bisect_map (goesBefore : β → Bool) (sorted : List α) (lo hi : Nat) :
    bisect goesBefore (sorted.map f) lo hi = bisect (fun x => goesBefore (f x)) sorted lo hi := by
  induction lo, hi using bisect.induct (fun x => goesBefore (f x)) sorted with
  | case1 lo hi hlt mid y hy hbefore ih =>
      rw [bisect, bisect, if_pos hlt, if_pos hlt]
      dsimp only
      rw [List.getElem?_map, hy]
      simp [hbefore, ih, mid]
  | case2 lo hi hlt mid y hy hbefore ih =>
      rw [bisect, bisect, if_pos hlt, if_pos hlt]
      dsimp only
      rw [List.getElem?_map, hy]
      simp [hbefore, ih, mid]
  | case3 lo hi hlt mid hnone =>
      rw [bisect, bisect, if_pos hlt, if_pos hlt]
      dsimp only
      rw [List.getElem?_map, hnone]
      rfl
  | case4 lo hi hge =>
      rw [bisect, bisect, if_neg hge, if_neg hge]

theorem insert_map (sorted : List α) (x : α) :
    insert before (sorted.map f) (f x) =
      (insert (fun x y => before (f x) (f y)) sorted x).map f := by
  unfold insert
  rw [bisect_map, List.length_map]
  simp [List.map_take, List.map_drop]

theorem descendingRun_map (run rest : List α) :
    descendingRun before (run.map f) (rest.map f) =
      Prod.map (List.map f) (List.map f)
        (descendingRun (fun x y => before (f x) (f y)) run rest) := by
  induction run, rest using descendingRun.induct (fun x y => before (f x) (f y)) with
  | case1 last run x rest hbefore ih =>
      rw [descendingRun, if_pos hbefore, ← ih]
      simp [descendingRun, hbefore]
  | case2 last run x rest hbefore =>
      simp [descendingRun, hbefore]
  | case3 run rest hother =>
      cases run with
      | nil => simp [descendingRun]
      | cons last run =>
          cases rest with
          | nil => simp [descendingRun]
          | cons x rest => exact (hother _ _ _ _ rfl rfl).elim

theorem ascendingRun_map (run rest : List α) :
    ascendingRun before (run.map f) (rest.map f) =
      Prod.map (List.map f) (List.map f)
        (ascendingRun (fun x y => before (f x) (f y)) run rest) := by
  induction run, rest using ascendingRun.induct (fun x y => before (f x) (f y)) with
  | case1 last run x rest hbefore =>
      simp [ascendingRun, hbefore]
  | case2 last run x rest hbefore ih =>
      rw [ascendingRun, if_neg hbefore, ← ih]
      simp [ascendingRun, hbefore]
  | case3 run rest hother =>
      cases run with
      | nil => simp [ascendingRun]
      | cons last run =>
          cases rest with
          | nil => simp [ascendingRun]
          | cons x rest => exact (hother _ _ _ _ rfl rfl).elim

theorem initialRun_map (items : List α) :
    initialRun before (items.map f) =
      Prod.map (List.map f) (List.map f)
        (initialRun (fun x y => before (f x) (f y)) items) := by
  cases items with
  | nil => rfl
  | cons x items =>
      cases items with
      | nil => rfl
      | cons y rest =>
          have hdescending := descendingRun_map before f [y, x] rest
          have hascending := ascendingRun_map before f [y, x] rest
          simp only [List.map_cons, List.map_nil] at hdescending hascending
          simp only [List.map_cons, initialRun]
          split
          · exact hdescending
          · rw [hascending]
            simp [Prod.map]

theorem foldl_insert_map (rest run : List α) :
    (rest.map f).foldl (insert before) (run.map f) =
      (rest.foldl (insert fun x y => before (f x) (f y)) run).map f := by
  induction rest generalizing run with
  | nil => rfl
  | cons x rest ih =>
      rw [List.map_cons, List.foldl_cons, insert_map, ih, List.foldl_cons]

theorem sort_map (items : List α) :
    sort before (items.map f) = (sort (fun x y => before (f x) (f y)) items).map f := by
  unfold sort
  rw [initialRun_map]
  exact foldl_insert_map before f _ _

theorem rankFrom_map (tied : β → β → Bool) (index place : Nat) (previous : α) (rest : List α) :
    rankFrom tied index (place, f previous) (rest.map f) =
      (rankFrom (fun x y => tied (f x) (f y)) index (place, previous) rest).map
        (Prod.map id f) := by
  induction rest generalizing index place previous with
  | nil => rfl
  | cons x rest ih =>
      rw [List.map_cons, rankFrom, rankFrom, List.map_cons, ih]
      rfl

theorem rank_map (tied : β → β → Bool) (items : List α) :
    rank tied (items.map f) =
      (rank (fun x y => tied (f x) (f y)) items).map (Prod.map id f) := by
  cases items with
  | nil => rfl
  | cons x rest =>
      rw [List.map_cons, rank, rankFrom_map]
      rfl

end

end Ranking

namespace Comparator

variable {α : Type _} {c : Comparator} {standing : α → Standing} {items : List α}

def ahead (c : Comparator) (standing : α → Standing) (x y : α) : Bool :=
  c.compare (standing x) (standing y) == .lt

theorem ahead_eq_true {x y : α} :
    c.ahead standing x y = true ↔ c.compare (standing x) (standing y) = .lt :=
  beq_iff_eq

theorem ahead_eq_false {x y : α} :
    c.ahead standing x y = false ↔ (c.compare (standing y) (standing x)).isLE = true := by
  unfold ahead
  rw [c.compare_swap (standing x)]
  cases c.compare (standing x) (standing y) <;> simp

theorem tied_ahead :
    Ranking.tied (c.ahead standing) =
      fun x y => c.compare (standing x) (standing y) == .eq := by
  funext x y
  unfold Ranking.tied ahead
  rw [c.compare_swap (standing x)]
  cases c.compare (standing x) (standing y) <;> rfl

theorem ahead_strictWeakOn (c : Comparator) (standing : α → Standing) :
    Ranking.StrictWeakOn (c.ahead standing) fun x => (standing x).IsFinite where
  asymm {x y} _ _ hxy := by
    rw [ahead_eq_true] at hxy
    rw [ahead_eq_false, hxy]
    rfl
  split {x y z} hx hy hz hxz := by
    cases hxy : c.ahead standing x y with
    | true => exact .inl rfl
    | false =>
        refine .inr ?_
        rw [← Bool.not_eq_false]
        intro hyz
        rw [ahead_eq_false] at hxy hyz
        have hzx := c.compare_trans hz hy hx hyz hxy
        rw [← ahead_eq_false, hxz] at hzx
        cases hzx

theorem sort_isStableSort (hfinite : ∀ x ∈ items, (standing x).IsFinite) :
    Ranking.IsStableSort (c.ahead standing) (c.sort standing items) items :=
  Ranking.sort_isStableSort ((c.ahead_strictWeakOn standing).mono hfinite)

theorem rank_eq (hfinite : ∀ x ∈ items, (standing x).IsFinite) :
    c.rank standing items = (c.sort standing items).map fun x =>
      (1 + items.countP (c.ahead standing · x), x) := by
  have hsort := c.sort_isStableSort hfinite
  have hdomain : ∀ x ∈ c.sort standing items, (standing x).IsFinite :=
    fun x hx => hfinite x (hsort.perm.mem_iff.mp hx)
  unfold rank
  rw [← tied_ahead, Ranking.rank_eq (c.ahead_strictWeakOn standing) hdomain hsort.ordered]
  apply List.map_congr_left
  intro x hx
  rw [hsort.perm.countP_eq]

theorem map_snd_rank (hfinite : ∀ x ∈ items, (standing x).IsFinite) :
    (c.rank standing items).map (·.2) = c.sort standing items := by
  rw [rank_eq hfinite, List.map_map]
  exact List.map_id _

/-- An arrangement of the items in which none stands before one that is strictly ahead of
it and those that tie keep their order. -/
structure Arranges (c : Comparator) (standing : α → Standing) (sorted items : List α) :
    Prop where
  perm : sorted.Perm items
  ordered : sorted.Pairwise fun x y => c.compare (standing y) (standing x) ≠ .lt
  ties : ∀ x ∈ items, sorted.filter (fun y => c.compare (standing x) (standing y) == .eq) =
    items.filter fun y => c.compare (standing x) (standing y) == .eq

theorem arranges_iff {sorted : List α} :
    c.Arranges standing sorted items ↔
      Ranking.IsStableSort (c.ahead standing) sorted items := by
  have hordered : ∀ x y, c.compare (standing y) (standing x) ≠ .lt ↔
      c.ahead standing y x = false := fun x y => beq_eq_false_iff_ne.symm
  constructor
  · intro h
    refine ⟨⟨h.perm, ?_⟩, h.ordered.imp (hordered _ _).mp⟩
    rw [tied_ahead]
    exact h.ties
  · intro h
    refine ⟨h.perm, h.ordered.imp (hordered _ _).mpr, ?_⟩
    have hties := h.filter_eq
    rwa [tied_ahead] at hties

theorem rank_perm (hfinite : ∀ x ∈ items, (standing x).IsFinite) {items' : List α}
    (hperm : items'.Perm items) : (c.rank standing items').Perm (c.rank standing items) := by
  have hfinite' : ∀ x ∈ items', (standing x).IsFinite :=
    fun x hx => hfinite x (hperm.mem_iff.mp hx)
  have hcount : (fun x => (1 + items'.countP (c.ahead standing · x), x)) =
      fun x => (1 + items.countP (c.ahead standing · x), x) := by
    funext x
    rw [hperm.countP_eq]
  rw [rank_eq hfinite, rank_eq hfinite', hcount]
  have hsort := c.sort_isStableSort hfinite
  have hsort' := c.sort_isStableSort hfinite'
  exact ((hsort'.perm.trans hperm).trans hsort.perm.symm).map _

theorem mem_rank_iff (hfinite : ∀ x ∈ items, (standing x).IsFinite) {n : Nat} {x : α} :
    (n, x) ∈ c.rank standing items ↔
      x ∈ items ∧ n = 1 + items.countP (c.ahead standing · x) := by
  rw [rank_eq hfinite, List.mem_map]
  constructor
  · rintro ⟨y, hy, heq⟩
    obtain ⟨rfl, rfl⟩ := Prod.mk.inj heq
    exact ⟨(c.sort_isStableSort hfinite).perm.mem_iff.mp hy, rfl⟩
  · rintro ⟨hx, rfl⟩
    exact ⟨x, (c.sort_isStableSort hfinite).perm.mem_iff.mpr hx, rfl⟩

theorem rank_congr {standing' : α → Standing}
    (h : ∀ x y, c.compare (standing x) (standing y) = c.compare (standing' x) (standing' y))
    (items : List α) : c.rank standing items = c.rank standing' items := by
  unfold rank sort
  simp only [h]

theorem rank_map {β : Type _} (c : Comparator) (standing : β → Standing) (f : α → β)
    (items : List α) :
    c.rank standing (items.map f) =
      (c.rank (fun x => standing (f x)) items).map (Prod.map id f) := by
  rw [rank, sort, Ranking.sort_map, Ranking.rank_map]
  rfl

theorem rank_congr_of_mem {standing standing' : α → Standing} {items : List α}
    (h : ∀ x ∈ items, ∀ y ∈ items,
      c.compare (standing x) (standing y) = c.compare (standing' x) (standing' y)) :
    c.rank standing items = c.rank standing' items := by
  have hcompare (x y : {x // x ∈ items}) : c.compare (standing x) (standing y) =
      c.compare (standing' x) (standing' y) := h x x.2 y y.2
  have hsame := rank_congr hcompare items.attach
  rw [← List.attach_map_subtype_val items, rank_map, rank_map, hsame]

theorem countP_ahead_replace {front back : List α} {x x' : α}
    (hfinite : ∀ y ∈ front ++ x :: back, (standing y).IsFinite)
    (hfinite' : (standing x').IsFinite) (hnot : c.ahead standing x' x = false) :
    (front ++ x :: back).countP (c.ahead standing · x) ≤
      (front ++ x' :: back).countP (c.ahead standing · x') := by
  have hstrict := c.ahead_strictWeakOn standing
  have hx := hfinite x (by simp)
  have hahead : ∀ y ∈ front ++ x :: back, c.ahead standing y x = true →
      c.ahead standing y x' = true := by
    intro y hy hyx
    exact hstrict.before_of_before_of_not (hfinite y hy) hx hfinite' hyx hnot
  have hfront := List.countP_mono_left fun y hy =>
    hahead y (List.mem_append_left _ hy)
  have hback := List.countP_mono_left fun y hy =>
    hahead y (List.mem_append_right front (List.mem_cons_of_mem x hy))
  rw [List.countP_append, List.countP_append,
    List.countP_cons_of_neg (by simp [hstrict.irrefl hx]),
    List.countP_cons_of_neg (by simp [hstrict.irrefl hfinite'])]
  exact Nat.add_le_add hfront hback

/-- What takes the place of an item that it is not ahead of is ranked no better. -/
theorem rank_replace {front back : List α} {x x' : α}
    (hfinite : ∀ y ∈ front ++ x :: back, (standing y).IsFinite)
    (hfinite' : (standing x').IsFinite)
    (hnot : c.compare (standing x') (standing x) ≠ .lt) :
    ∃ place place', (∀ n, (n, x) ∈ c.rank standing (front ++ x :: back) ↔ n = place) ∧
      (∀ n, (n, x') ∈ c.rank standing (front ++ x' :: back) ↔ n = place') ∧
      place ≤ place' := by
  have hreplaced : ∀ y ∈ front ++ x' :: back, (standing y).IsFinite := by
    intro y hy
    rcases List.mem_append.mp hy with hy | hy
    · exact hfinite y (List.mem_append_left _ hy)
    · rcases List.mem_cons.mp hy with rfl | hy
      · exact hfinite'
      · exact hfinite y (List.mem_append_right _ (List.mem_cons_of_mem x hy))
  refine ⟨_, _, fun n => ?_, fun n => ?_,
    Nat.add_le_add_left (countP_ahead_replace hfinite hfinite' (beq_eq_false_iff_ne.mpr hnot)) 1⟩
  · rw [mem_rank_iff hfinite]
    exact and_iff_right (by simp)
  · rw [mem_rank_iff hreplaced]
    exact and_iff_right (by simp)

/-- Ranking gives the one stable arrangement of the items, each ranked by the number of
items strictly ahead of it, in whatever order they were given. -/
theorem rank_competition (hfinite : ∀ x ∈ items, (standing x).IsFinite) :
    c.Arranges standing ((c.rank standing items).map (·.2)) items ∧
    (∀ sorted, c.Arranges standing sorted items →
      sorted = (c.rank standing items).map (·.2)) ∧
    (∀ entry ∈ c.rank standing items, entry.1 =
      1 + items.countP fun y => c.compare (standing y) (standing entry.2) == .lt) ∧
    ∀ items', items'.Perm items →
      (c.rank standing items').Perm (c.rank standing items) := by
  have hsort := c.sort_isStableSort hfinite
  have hstrict := (c.ahead_strictWeakOn standing).mono hfinite
  rw [map_snd_rank hfinite]
  refine ⟨arranges_iff.mpr hsort, ?_, ?_, fun _ => rank_perm hfinite⟩
  · intro sorted hsorted
    exact Ranking.IsStableSort.unique hstrict (arranges_iff.mp hsorted) hsort
  · intro entry hentry
    rw [rank_eq hfinite] at hentry
    obtain ⟨x, -, rfl⟩ := List.mem_map.mp hentry
    rfl

def sharedPoints : List Standing :=
  [30, 50, 30, 10].map fun n => { final := .only .points (some (.ofDecimal false n 0)) }

theorem rank_sharedPoints :
    (∀ s ∈ sharedPoints, s.IsFinite) ∧
    ∀ entry ∈ (tie.descending (.final .points)).rank id sharedPoints, entry.1 =
      1 + sharedPoints.countP fun s =>
        (tie.descending (.final .points)).compare s entry.2 == .lt := by
  have hfinite : ∀ s ∈ sharedPoints, (id s).IsFinite := by decide +kernel
  exact ⟨hfinite, (rank_competition hfinite).2.2.1⟩

end Comparator

end ApneaScoring
