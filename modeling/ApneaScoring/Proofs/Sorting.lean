import ApneaScoring.Ranking
import Mathlib.Order.Basic

namespace ApneaScoring.Ranking

variable {α : Type _}

structure StrictWeakOn (before : α → α → Bool) (domain : α → Prop) : Prop where
  asymm : ∀ {x y}, domain x → domain y → before x y = true → before y x = false
  split : ∀ {x y z}, domain x → domain y → domain z → before x z = true →
    before x y = true ∨ before y z = true

def tied (before : α → α → Bool) (x y : α) : Bool :=
  !before x y && !before y x

theorem tied_iff {before : α → α → Bool} {x y : α} :
    tied before x y = true ↔ before x y = false ∧ before y x = false := by
  simp [tied]

def Ordered (before : α → α → Bool) (items : List α) : Prop :=
  items.Pairwise fun x y => before y x = false

namespace StrictWeakOn

variable {before : α → α → Bool} {domain : α → Prop} {x y z : α}

theorem irrefl (h : StrictWeakOn before domain) (hx : domain x) : before x x = false := by
  cases hself : before x x with
  | false => rfl
  | true => exact hself.symm.trans (h.asymm hx hx hself)

theorem before_of_before_of_not (h : StrictWeakOn before domain) (hx : domain x)
    (hy : domain y) (hz : domain z) (hxy : before x y = true) (hzy : before z y = false) :
    before x z = true := by
  rcases h.split hx hz hy hxy with hxz | hzy'
  · exact hxz
  · rw [hzy] at hzy'
    cases hzy'

theorem before_of_not_of_before (h : StrictWeakOn before domain) (hx : domain x)
    (hy : domain y) (hz : domain z) (hyx : before y x = false) (hyz : before y z = true) :
    before x z = true := by
  rcases h.split hy hx hz hyz with hyx' | hxz
  · rw [hyx] at hyx'
    cases hyx'
  · exact hxz

theorem trans (h : StrictWeakOn before domain) (hx : domain x) (hy : domain y)
    (hz : domain z) (hxy : before x y = true) (hyz : before y z = true) :
    before x z = true :=
  h.before_of_before_of_not hx hy hz hxy (h.asymm hy hz hyz)

theorem not_trans (h : StrictWeakOn before domain) (hx : domain x) (hy : domain y)
    (hz : domain z) (hyx : before y x = false) (hzy : before z y = false) :
    before z x = false := by
  cases hzx : before z x with
  | false => rfl
  | true =>
      rcases h.split hz hy hx hzx with hzy' | hyx'
      · exact hzy'.symm.trans hzy
      · exact hyx'.symm.trans hyx

theorem before_eq_of_tied (h : StrictWeakOn before domain) (hx : domain x) (hy : domain y)
    (hz : domain z) (hxy : tied before x y = true) : before z x = before z y := by
  rw [tied_iff] at hxy
  apply Bool.eq_iff_iff.mpr
  constructor
  · intro hzx
    exact h.before_of_before_of_not hz hx hy hzx hxy.2
  · intro hzy
    exact h.before_of_before_of_not hz hy hx hzy hxy.1

theorem mono {smaller : α → Prop} (h : StrictWeakOn before domain)
    (hsub : ∀ x, smaller x → domain x) : StrictWeakOn before smaller where
  asymm hx hy := h.asymm (hsub _ hx) (hsub _ hy)
  split hx hy hz := h.split (hsub _ hx) (hsub _ hy) (hsub _ hz)

end StrictWeakOn

structure KeepsTies (before : α → α → Bool) (domain : α → Prop) (xs ys : List α) :
    Prop where
  perm : xs.Perm ys
  filter_eq : ∀ z, domain z → xs.filter (tied before z) = ys.filter (tied before z)

namespace KeepsTies

variable {before : α → α → Bool} {domain : α → Prop} {xs ys zs : List α}

theorem refl (xs : List α) : KeepsTies before domain xs xs :=
  ⟨.refl _, fun _ _ => rfl⟩

theorem trans (hxy : KeepsTies before domain xs ys) (hyz : KeepsTies before domain ys zs) :
    KeepsTies before domain xs zs :=
  ⟨hxy.perm.trans hyz.perm, fun z hz => (hxy.filter_eq z hz).trans (hyz.filter_eq z hz)⟩

theorem append_right (h : KeepsTies before domain xs ys) (zs : List α) :
    KeepsTies before domain (xs ++ zs) (ys ++ zs) := by
  refine ⟨h.perm.append_right zs, ?_⟩
  intro z hz
  rw [List.filter_append, List.filter_append, h.filter_eq z hz]

theorem forall_mem (h : KeepsTies before domain xs ys) (hys : ∀ y ∈ ys, domain y) :
    ∀ x ∈ xs, domain x :=
  fun x hx => hys x (h.perm.mem_iff.mp hx)

end KeepsTies

/-- A sorted arrangement of the items in which those that tie keep their order. -/
structure IsStableSort (before : α → α → Bool) (sorted items : List α) : Prop
    extends KeepsTies before (· ∈ items) sorted items where
  ordered : Ordered before sorted

theorem head_tied {before : α → α → Bool} {x y : α} {xs ys : List α}
    (hxs : Ordered before (x :: xs)) (hys : Ordered before (y :: ys))
    (hself : before x x = false) (hx : x ∈ y :: ys) (hy : y ∈ x :: xs) :
    tied before x y = true := by
  rw [tied_iff]
  constructor
  · rcases List.mem_cons.mp hx with rfl | hmem
    · exact hself
    · exact List.rel_of_pairwise_cons hys hmem
  · rcases List.mem_cons.mp hy with rfl | hmem
    · exact hself
    · exact List.rel_of_pairwise_cons hxs hmem

theorem eq_of_ordered {before : α → α → Bool} {domain : α → Prop}
    (h : StrictWeakOn before domain) {xs ys : List α} (hdomain : ∀ x ∈ xs, domain x)
    (hperm : xs.Perm ys) (hxs : Ordered before xs) (hys : Ordered before ys)
    (hfilter : ∀ x ∈ xs, xs.filter (tied before x) = ys.filter (tied before x)) :
    xs = ys := by
  induction xs generalizing ys with
  | nil => exact hperm.nil_eq
  | cons x xs ih =>
      cases ys with
      | nil => exact hperm.eq_nil
      | cons y ys =>
          have hself := h.irrefl (hdomain x List.mem_cons_self)
          have htied := head_tied hxs hys hself (hperm.mem_iff.mp List.mem_cons_self)
            (hperm.mem_iff.mpr List.mem_cons_self)
          have hclass := hfilter x List.mem_cons_self
          rw [List.filter_cons_of_pos (tied_iff.mpr ⟨hself, hself⟩),
            List.filter_cons_of_pos htied] at hclass
          obtain rfl := (List.cons.inj hclass).1
          congr 1
          apply ih (fun z hz => hdomain z (List.mem_cons_of_mem x hz))
            (hperm.cons_inv) hxs.tail hys.tail
          intro z hz
          have hrest := hfilter z (List.mem_cons_of_mem x hz)
          rw [List.filter_cons, List.filter_cons] at hrest
          split at hrest
          · exact (List.cons.inj hrest).2
          · exact hrest

theorem IsStableSort.unique {before : α → α → Bool} {items sorted sorted' : List α}
    (h : StrictWeakOn before (· ∈ items)) (hsorted : IsStableSort before sorted items)
    (hsorted' : IsStableSort before sorted' items) : sorted = sorted' := by
  refine eq_of_ordered h (fun x hx => hsorted.perm.mem_iff.mp hx)
    (hsorted.perm.trans hsorted'.perm.symm) hsorted.ordered hsorted'.ordered ?_
  intro x hx
  have hmem := hsorted.perm.mem_iff.mp hx
  rw [hsorted.filter_eq x hmem, hsorted'.filter_eq x hmem]

/-- Where the predicate holds from some point on, the search finds that point. -/
theorem bisect_partition {goesBefore : α → Bool} {sorted : List α}
    (hmono : sorted.Pairwise fun x y => goesBefore x = true → goesBefore y = true)
    {lo hi : Nat} (hhi : hi ≤ sorted.length)
    (hbelow : ∀ y ∈ sorted.take lo, goesBefore y = false)
    (habove : ∀ y ∈ sorted.drop hi, goesBefore y = true) :
    (∀ y ∈ sorted.take (bisect goesBefore sorted lo hi), goesBefore y = false) ∧
      ∀ y ∈ sorted.drop (bisect goesBefore sorted lo hi), goesBefore y = true := by
  fun_induction bisect goesBefore sorted lo hi with
  | case1 lo hi hlt mid y hy hgoes ih =>
      obtain ⟨hmid, rfl⟩ := List.getElem?_eq_some_iff.mp hy
      apply ih (Nat.le_of_lt hmid) hbelow
      rw [List.drop_eq_getElem_cons hmid]
      intro z hz
      rcases List.mem_cons.mp hz with rfl | hz
      · exact hgoes
      · have hsecond : (sorted.drop mid).Pairwise fun x y =>
            goesBefore x = true → goesBefore y = true :=
          hmono.sublist (List.drop_sublist _ _)
        rw [List.drop_eq_getElem_cons hmid] at hsecond
        exact List.rel_of_pairwise_cons hsecond hz hgoes
  | case2 lo hi hlt mid y hy hgoes ih =>
      obtain ⟨hmid, rfl⟩ := List.getElem?_eq_some_iff.mp hy
      refine ih hhi ?_ habove
      rw [List.take_succ_eq_append_getElem hmid]
      intro z hz
      rcases List.mem_append.mp hz with hz | hz
      · -- An item before one that the new item stays behind is stayed behind as well.
        have hfirst : (sorted.take (mid + 1)).Pairwise fun x y =>
            goesBefore x = true → goesBefore y = true :=
          hmono.sublist (List.take_sublist _ _)
        rw [List.take_succ_eq_append_getElem hmid, List.pairwise_append] at hfirst
        cases hz' : goesBefore z with
        | false => rfl
        | true =>
            exact absurd (hfirst.2.2 z hz _ (List.mem_singleton_self _) hz') hgoes
      · rw [List.mem_singleton.mp hz]
        exact Bool.eq_false_iff.mpr hgoes
  | case3 lo hi hlt mid hnone =>
      have hmid : sorted.length ≤ mid := List.getElem?_eq_none_iff.mp hnone
      omega
  | case4 lo hi hlt =>
      refine ⟨hbelow, fun y hy => habove y ?_⟩
      exact (List.drop_sublist_drop_left sorted (Nat.le_of_not_lt hlt)).subset hy

section Insert

variable {before : α → α → Bool} {domain : α → Prop} {sorted : List α} {x : α}

theorem insert_partition (h : StrictWeakOn before domain) (hx : domain x)
    (hdomain : ∀ y ∈ sorted, domain y) (hsorted : Ordered before sorted) :
    (∀ y ∈ sorted.take (bisect (before x) sorted 0 sorted.length), before x y = false) ∧
      ∀ y ∈ sorted.drop (bisect (before x) sorted 0 sorted.length), before x y = true := by
  refine bisect_partition ?_ (Nat.le_refl _) (by simp) (by simp)
  refine List.Pairwise.imp_of_mem ?_ hsorted
  intro y z hy hz hzy hxy
  exact h.before_of_before_of_not hx (hdomain y hy) (hdomain z hz) hxy hzy

theorem insert_ordered (h : StrictWeakOn before domain) (hx : domain x)
    (hdomain : ∀ y ∈ sorted, domain y) (hsorted : Ordered before sorted) :
    Ordered before (insert before sorted x) := by
  obtain ⟨hbelow, habove⟩ := insert_partition h hx hdomain hsorted
  unfold insert Ordered
  dsimp only
  generalize bisect (before x) sorted 0 sorted.length = place at hbelow habove ⊢
  have hparts := hsorted
  rw [← List.take_append_drop place sorted] at hparts
  unfold Ordered at hparts
  rw [List.pairwise_append] at hparts
  obtain ⟨hfirst, hsecond, hbetween⟩ := hparts
  rw [List.pairwise_append, List.pairwise_cons]
  refine ⟨hfirst, ⟨?_, hsecond⟩, ?_⟩
  · intro y hy
    exact h.asymm hx (hdomain y (List.mem_of_mem_drop hy)) (habove y hy)
  · intro y hy z hz
    rcases List.mem_cons.mp hz with rfl | hz
    · exact hbelow y hy
    · exact hbetween y hy z hz

theorem insert_keepsTies (h : StrictWeakOn before domain) (hx : domain x)
    (hdomain : ∀ y ∈ sorted, domain y) (hsorted : Ordered before sorted) :
    KeepsTies before domain (insert before sorted x) (sorted ++ [x]) := by
  obtain ⟨-, habove⟩ := insert_partition h hx hdomain hsorted
  unfold insert
  dsimp only
  generalize bisect (before x) sorted 0 sorted.length = place at habove ⊢
  have hsplit : sorted ++ [x] = sorted.take place ++ (sorted.drop place ++ [x]) := by
    rw [← List.append_assoc, List.take_append_drop]
  rw [hsplit]
  refine ⟨List.Perm.append_left _ (List.perm_append_singleton _ _).symm, ?_⟩
  intro z hz
  rw [List.filter_append, List.filter_append, List.filter_append, List.filter_cons]
  cases htied : tied before z x with
  | false => simp [htied]
  | true =>
      have hempty : (sorted.drop place).filter (tied before z) = [] := by
        rw [List.filter_eq_nil_iff]
        intro y hy hzy
        have hyd := hdomain y (List.mem_of_mem_drop hy)
        rw [tied_iff] at htied hzy
        have hxz := h.before_of_before_of_not hx hyd hz (habove y hy) hzy.1
        exact Bool.noConfusion (htied.2.symm.trans hxz)
      rw [hempty]
      simp [htied]

theorem foldl_insert_spec (h : StrictWeakOn before domain) {items : List α}
    (hitems : ∀ y ∈ items, domain y) (hdomain : ∀ y ∈ sorted, domain y)
    (hsorted : Ordered before sorted) :
    KeepsTies before domain (items.foldl (insert before) sorted) (sorted ++ items) ∧
      Ordered before (items.foldl (insert before) sorted) := by
  induction items generalizing sorted with
  | nil =>
      rw [List.append_nil]
      exact ⟨.refl _, hsorted⟩
  | cons x items ih =>
      have hx := hitems x List.mem_cons_self
      have hstep := insert_keepsTies h hx hdomain hsorted
      have hinserted : ∀ y ∈ insert before sorted x, domain y := by
        apply hstep.forall_mem
        intro y hy
        rcases List.mem_append.mp hy with hy | hy
        · exact hdomain y hy
        · exact List.mem_singleton.mp hy ▸ hx
      obtain ⟨hkeeps, hordered⟩ := ih
        (fun y hy => hitems y (List.mem_cons_of_mem x hy)) hinserted
        (insert_ordered h hx hdomain hsorted)
      refine ⟨hkeeps.trans ?_, hordered⟩
      have happend := hstep.append_right items
      rwa [List.append_assoc, List.singleton_append] at happend

end Insert

section Runs

variable {before : α → α → Bool} {domain : α → Prop}

theorem descendingRun_append (before : α → α → Bool) (run items : List α) :
    (descendingRun before run items).1.reverse ++ (descendingRun before run items).2 =
      run.reverse ++ items := by
  fun_induction descendingRun before run items with
  | case1 last run x rest hbefore ih =>
      rw [ih]
      simp
  | case2 last run x rest hbefore => rfl
  | case3 run items hend => rfl

theorem ascendingRun_append (before : α → α → Bool) (run items : List α) :
    (ascendingRun before run items).1.reverse ++ (ascendingRun before run items).2 =
      run.reverse ++ items := by
  fun_induction ascendingRun before run items with
  | case1 last run x rest hbefore => rfl
  | case2 last run x rest hbefore ih =>
      rw [ih]
      simp
  | case3 run items hend => rfl

theorem descendingRun_strict (h : StrictWeakOn before domain) {run items : List α}
    (hrun : ∀ y ∈ run, domain y) (hitems : ∀ y ∈ items, domain y)
    (hstrict : run.Pairwise fun x y => before x y = true) :
    (descendingRun before run items).1.Pairwise fun x y => before x y = true := by
  fun_induction descendingRun before run items with
  | case1 last run x rest hbefore ih =>
      have hx := hitems x List.mem_cons_self
      have hlast := hrun last List.mem_cons_self
      apply ih
      · intro y hy
        rcases List.mem_cons.mp hy with rfl | hy
        · exact hx
        · exact hrun y hy
      · exact fun y hy => hitems y (List.mem_cons_of_mem x hy)
      · refine List.pairwise_cons.mpr ⟨?_, hstrict⟩
        intro y hy
        rcases List.mem_cons.mp hy with rfl | hmem
        · exact hbefore
        · exact h.trans hx hlast (hrun y hy) hbefore (List.rel_of_pairwise_cons hstrict hmem)
  | case2 last run x rest hbefore => exact hstrict
  | case3 run items hend => exact hstrict

theorem ascendingRun_ordered (h : StrictWeakOn before domain) {run items : List α}
    (hrun : ∀ y ∈ run, domain y) (hitems : ∀ y ∈ items, domain y)
    (hordered : run.Pairwise fun x y => before x y = false) :
    (ascendingRun before run items).1.Pairwise fun x y => before x y = false := by
  fun_induction ascendingRun before run items with
  | case1 last run x rest hbefore => exact hordered
  | case2 last run x rest hbefore ih =>
      have hx := hitems x List.mem_cons_self
      have hlast := hrun last List.mem_cons_self
      have hxlast := Bool.eq_false_iff.mpr hbefore
      apply ih
      · intro y hy
        rcases List.mem_cons.mp hy with rfl | hy
        · exact hx
        · exact hrun y hy
      · exact fun y hy => hitems y (List.mem_cons_of_mem x hy)
      · refine List.pairwise_cons.mpr ⟨?_, hordered⟩
        intro y hy
        rcases List.mem_cons.mp hy with rfl | hmem
        · exact hxlast
        · exact h.not_trans (hrun y hy) hlast hx
            (List.rel_of_pairwise_cons hordered hmem) hxlast
  | case3 run items hend => exact hordered

theorem reverse_keepsTies (h : StrictWeakOn before domain) {items : List α}
    (hitems : ∀ y ∈ items, domain y)
    (hstrict : items.Pairwise fun x y => before x y = true) :
    KeepsTies before domain items items.reverse := by
  refine ⟨(List.reverse_perm items).symm, ?_⟩
  intro z hz
  have hclass : (items.filter (tied before z)).Pairwise fun _ _ => False := by
    refine List.Pairwise.imp_of_mem ?_ (hstrict.filter _)
    intro x y hx hy hxy
    obtain ⟨hx, hzx⟩ := List.mem_filter.mp hx
    obtain ⟨hy, hzy⟩ := List.mem_filter.mp hy
    have hxz := h.before_eq_of_tied hz (hitems y hy) (hitems x hx) hzy
    rw [tied_iff] at hzx
    exact Bool.noConfusion (hzx.2.symm.trans (hxz.trans hxy))
  rw [List.filter_reverse]
  cases hlist : items.filter (tied before z) with
  | nil => rfl
  | cons x rest =>
      cases rest with
      | nil => rfl
      | cons y rest =>
          rw [hlist] at hclass
          exact (List.rel_of_pairwise_cons hclass List.mem_cons_self).elim

theorem initialRun_cons_cons (x y : α) (rest : List α) :
    initialRun before (x :: y :: rest) =
      if before y x then descendingRun before [y, x] rest
      else ((ascendingRun before [y, x] rest).1.reverse,
        (ascendingRun before [y, x] rest).2) := rfl

theorem initialRun_spec (h : StrictWeakOn before domain) {items : List α}
    (hitems : ∀ y ∈ items, domain y) :
    KeepsTies before domain ((initialRun before items).1 ++ (initialRun before items).2)
        items ∧
      Ordered before (initialRun before items).1 := by
  match items with
  | [] => exact ⟨.refl _, .nil⟩
  | [x] => exact ⟨.refl _, List.pairwise_singleton _ _⟩
  | x :: y :: rest =>
      have hstart : ∀ z ∈ [y, x], domain z := by
        intro z hz
        rcases List.mem_cons.mp hz with rfl | hz
        · exact hitems _ (List.mem_cons_of_mem x List.mem_cons_self)
        · exact List.mem_singleton.mp hz ▸ hitems x List.mem_cons_self
      have hrest : ∀ z ∈ rest, domain z := fun z hz =>
        hitems z (List.mem_cons_of_mem x (List.mem_cons_of_mem y hz))
      rw [initialRun_cons_cons]
      split
      · next hbefore =>
          have happend := descendingRun_append before [y, x] rest
          have hstrict := descendingRun_strict h hstart hrest
            (List.pairwise_pair.mpr hbefore)
          generalize descendingRun before [y, x] rest = result at happend hstrict ⊢
          have hrun : ∀ z ∈ result.1, domain z := by
            intro z hz
            have hmem : z ∈ result.1.reverse ++ result.2 :=
              List.mem_append_left _ (List.mem_reverse.mpr hz)
            rw [happend] at hmem
            exact hitems z hmem
          refine ⟨?_, ?_⟩
          · have hkeeps := (reverse_keepsTies h hrun hstrict).append_right result.2
            rwa [happend] at hkeeps
          · refine List.Pairwise.imp_of_mem ?_ hstrict
            intro a b ha hb hab
            exact h.asymm (hrun a ha) (hrun b hb) hab
      · next hbefore =>
          have happend := ascendingRun_append before [y, x] rest
          have hordered := ascendingRun_ordered h hstart hrest
            (List.pairwise_pair.mpr (Bool.eq_false_iff.mpr hbefore))
          refine ⟨?_, List.pairwise_reverse.mpr hordered⟩
          rw [happend]
          exact .refl _

end Runs

theorem sort_isStableSort {before : α → α → Bool} {items : List α}
    (h : StrictWeakOn before (· ∈ items)) :
    IsStableSort before (sort before items) items := by
  obtain ⟨hkeeps, hordered⟩ := initialRun_spec h (fun _ hy => hy)
  have hmem := hkeeps.forall_mem (fun _ hy => hy)
  obtain ⟨hsorted, hresult⟩ := foldl_insert_spec h
    (fun y hy => hmem y (List.mem_append_right _ hy))
    (fun y hy => hmem y (List.mem_append_left _ hy)) hordered
  exact ⟨hsorted.trans hkeeps, hresult⟩

end ApneaScoring.Ranking
