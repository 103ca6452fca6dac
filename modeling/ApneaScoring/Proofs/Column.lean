import ApneaScoring.Proofs.Repository
import ApneaScoring.Proofs.Session

namespace ApneaScoring

section

variable {α : Type} [DecidableEq α]

theorem foldl_distinct (items : List α) :
    items.foldl (fun seen x => if x ∈ seen then seen else seen ++ [x]) [] = items.eraseDups := by
  induction items using List.reverseRecOn with
  | nil => rfl
  | append_singleton items x ih =>
      rw [List.foldl_append, ih, eraseDups_concat]
      simp

theorem eraseDups_of_forall_eq {items : List α} {x : α} (hne : items ≠ [])
    (h : ∀ y ∈ items, y = x) : items.eraseDups = [x] := by
  cases items with
  | nil => exact absurd rfl hne
  | cons y items =>
      rw [List.forall_mem_cons] at h
      obtain ⟨rfl, hrest⟩ := h
      have hnone : items.filter (!· == y) = [] := by
        rw [List.filter_eq_nil_iff]
        intro z hz
        simp [hrest z hz]
      rw [List.eraseDups_cons, hnone]
      rfl

end

namespace Column

theorem distinctRules_eq (rules : List Rule) : distinctRules rules = rules.eraseDups :=
  foldl_distinct rules

/-- How the column is ordered when its rules are looked up in a repository. -/
def comparatorIn (column : Column) (rulesName : String → Option String) (r : Repository) :
    Comparator :=
  comparatorOf (column.parts.map fun part => r.get ((rulesName part.discipline).getD ""))

/-- Whether the rule orders results by one final component, its own. -/
def OrdersBy (c : Component) (rule : Rule) : Prop :=
  rule.hasPoints = false ∧ rule.primary = some c ∧
    rule.comparator = Comparator.tie.descending (.final c)

theorem byPrimaries_of_forall {rules : List Rule} {c : Component} (hne : rules ≠ [])
    (h : ∀ rule ∈ rules, OrdersBy c rule) :
    byPrimaries rules = Comparator.tie.descending (.final c) := by
  have hprimaries : (rules.filterMap (·.primary)).eraseDups = [c] := by
    apply eraseDups_of_forall_eq
    · obtain ⟨rule, rules, rfl⟩ := List.exists_cons_of_ne_nil hne
      simp [(h rule List.mem_cons_self).2.1]
    · intro primary hprimary
      obtain ⟨rule, hrule, hsome⟩ := List.mem_filterMap.mp hprimary
      rw [(h rule hrule).2.1] at hsome
      exact (Option.some.inj hsome).symm
  rw [byPrimaries, foldl_distinct, hprimaries]
  rfl

theorem comparatorOf_of_forall {rules : List Rule} {c : Component} (hne : rules ≠ [])
    (h : ∀ rule ∈ rules, OrdersBy c rule) :
    comparatorOf rules = Comparator.tie.descending (.final c) := by
  have hdistinct : ∀ rule ∈ distinctRules rules, OrdersBy c rule := by
    intro rule hrule
    rw [distinctRules_eq, List.mem_eraseDups] at hrule
    exact h rule hrule
  rw [comparatorOf]
  split
  · next hnone =>
      obtain ⟨rule, hrule⟩ := List.exists_mem_of_ne_nil rules hne
      rw [← List.mem_eraseDups, ← distinctRules_eq, hnone] at hrule
      cases hrule
  · next rule hone =>
      rw [hone] at hdistinct
      exact (hdistinct rule List.mem_cons_self).2.2
  · next hnone _ =>
      obtain ⟨rule, hrule⟩ := List.exists_mem_of_ne_nil _ hnone
      have hpoints : (distinctRules rules).all (·.hasPoints) = false := by
        rw [List.all_eq_false]
        exact ⟨rule, hrule, by simp [(hdistinct rule hrule).1]⟩
      rw [hpoints, if_neg Bool.false_ne_true]
      exact byPrimaries_of_forall hnone hdistinct

def orderingBy (c : Component) (name : String) : Rule where
  name := name
  primary := some c
  comparator := Comparator.tie.descending (.final c)
  ids_nodup := Rule.unknown.ids_nodup
  points_calculated := Rule.unknown.points_calculated

def repositoryBy (column : Column) (rulesName : String → Option String) (c : Component) :
    Repository :=
  .ofList (column.parts.map fun part => orderingBy c ((rulesName part.discipline).getD ""))

theorem ordersBy_get (column : Column) (rulesName : String → Option String) (c : Component)
    {part : ColumnPart} (hpart : part ∈ column.parts) :
    OrdersBy c ((column.repositoryBy rulesName c).get ((rulesName part.discipline).getD "")) := by
  have hmem : orderingBy c ((rulesName part.discipline).getD "") ∈ column.parts.map fun part =>
      orderingBy c ((rulesName part.discipline).getD "") :=
    List.mem_map_of_mem hpart
  rw [repositoryBy, Repository.get, Repository.find?_ofList]
  cases hlast : (List.filter _ _).getLast? with
  | none =>
      rw [List.getLast?_eq_none_iff, List.filter_eq_nil_iff] at hlast
      exact absurd (beq_self_eq_true _) (hlast _ hmem)
  | some rule =>
      have hrule := List.mem_of_mem_filter (List.mem_of_getLast? hlast)
      obtain ⟨other, -, rfl⟩ := List.mem_map.mp hrule
      exact ⟨rfl, rfl, rfl⟩

theorem comparatorIn_repositoryBy {column : Column} (hparts : column.parts ≠ [])
    (rulesName : String → Option String) (c : Component) :
    column.comparatorIn rulesName (column.repositoryBy rulesName c) =
      Comparator.tie.descending (.final c) := by
  apply comparatorOf_of_forall
  · simpa using hparts
  · intro rule hrule
    obtain ⟨part, hpart, rfl⟩ := List.mem_map.mp hrule
    exact column.ordersBy_get rulesName c hpart

end Column

namespace Session

/-- The repository that the rules of a column are looked up in. -/
def consulted (session : Session) (given : Option Repository) : Repository :=
  match given with
  | some r => if r.size = 0 then session.inUse else r
  | none => session.inUse

theorem run_lookups (session : Session) (r : Repository) (rulesName : String → Option String)
    (parts : List ColumnPart) :
    ∃ after, session.run (parts.mapM fun part => lookup r (rulesName part.discipline)) =
      (.ok (parts.map fun part => r.get ((rulesName part.discipline).getD "")), after) := by
  induction parts generalizing session with
  | nil => exact ⟨session, rfl⟩
  | cons part parts ih =>
      obtain ⟨journal, hlookup⟩ := session.run_lookup r (rulesName part.discipline)
      obtain ⟨after, hrest⟩ := ih { session with journal }
      refine ⟨after, ?_⟩
      rw [List.mapM_cons, run_bind, hlookup]
      simp only
      rw [run_bind, hrest]
      rfl

theorem run_ordering (session : Session) (column : Column)
    (rulesName : String → Option String) (r : Repository) :
    (session.run do
      let rules ← column.parts.mapM fun part => lookup r (rulesName part.discipline)
      return Column.comparatorOf rules).1 = .ok (column.comparatorIn rulesName r) := by
  obtain ⟨after, hrules⟩ := session.run_lookups r rulesName column.parts
  rw [run_bind, hrules]
  rfl

theorem run_columnComparator (session : Session) (column : Column)
    (rulesName : String → Option String) (given : Option Repository) :
    (session.run (columnComparator column rulesName given)).1 =
      .ok (column.comparatorIn rulesName (session.consulted given)) := by
  obtain ⟨journal, hdefault⟩ := session.run_defaultRepository
  have hinUse : (session.run do
      let r ← defaultRepository
      let rules ← column.parts.mapM fun part => lookup r (rulesName part.discipline)
      return Column.comparatorOf rules).1 =
        .ok (column.comparatorIn rulesName session.inUse) := by
    rw [run_bind, hdefault]
    exact run_ordering _ column rulesName session.inUse
  cases given with
  | none => exact hinUse
  | some r =>
      simp only [columnComparator, consulted]
      split
      · exact hinUse
      · exact session.run_ordering column rulesName r

theorem consulted_default (r other : Repository) (h : r.size = 0) :
    ({ repository := some other } : Session).consulted (some r) = other := by
  rw [consulted, if_pos h]
  rfl

/-- The repository that is given orders the column, whatever the session, unless it has no
rules and the column has parts: then the default repository does. -/
theorem columnComparator_given (column : Column) (rulesName : String → Option String)
    (r : Repository) :
    (∀ session : Session, (session.run (columnComparator column rulesName (some r))).1 =
      .ok (column.comparatorIn rulesName (if r.size = 0 then session.inUse else r))) ∧
    ((∀ session : Session, (session.run (columnComparator column rulesName (some r))).1 =
      .ok (column.comparatorIn rulesName r)) ↔ 0 < r.size ∨ column.parts = []) ∧
    ((∀ session other : Session, (session.run (columnComparator column rulesName (some r))).1 =
      (other.run (columnComparator column rulesName (some r))).1) ↔
        0 < r.size ∨ column.parts = []) := by
  have hgiven (h : 0 < r.size ∨ column.parts = []) (session : Session) :
      (session.run (columnComparator column rulesName (some r))).1 =
        .ok (column.comparatorIn rulesName r) := by
    rw [run_columnComparator]
    cases h with
    | inl hrules => rw [consulted, if_neg (Nat.pos_iff_ne_zero.mp hrules)]
    | inr hnone =>
        rw [Column.comparatorIn, Column.comparatorIn, hnone, List.map_nil, List.map_nil]
  have hdepends (h : ∀ session other : Session,
      (session.run (columnComparator column rulesName (some r))).1 =
        (other.run (columnComparator column rulesName (some r))).1) :
      0 < r.size ∨ column.parts = [] := by
    by_contra hlimit
    rw [not_or, Nat.pos_iff_ne_zero, not_not] at hlimit
    obtain ⟨hempty, hparts⟩ := hlimit
    -- Two default repositories that order every column with parts differently.
    have hsame := h { repository := some (column.repositoryBy rulesName .duration) }
      { repository := some (column.repositoryBy rulesName .depth) }
    rw [run_columnComparator, run_columnComparator, consulted_default _ _ hempty,
      consulted_default _ _ hempty, Column.comparatorIn_repositoryBy hparts,
      Column.comparatorIn_repositoryBy hparts] at hsame
    cases hsame
  refine ⟨fun session => session.run_columnComparator column rulesName (some r), ⟨?_, hgiven⟩,
    ⟨hdepends, ?_⟩⟩
  · intro h
    apply hdepends
    intro session other
    rw [h, h]
  · intro h session other
    rw [hgiven h, hgiven h]

def staticColumn : Column where
  parts := [{ discipline := "sta" }]

def staticRules (discipline : String) : Option String :=
  if discipline = "sta" then some "AIDA_STA" else none

/-- A repository without rules is given, and yet a federation rule orders the column. -/
theorem emptyRepository_replaced :
    (({} : Session).run (columnComparator staticColumn staticRules (some .empty))).1 =
        .ok Federations.Aida.sta.comparator ∧
      staticColumn.comparatorIn staticRules .empty = .tie ∧
      Federations.Aida.sta.comparator ≠ .tie := by
  refine ⟨?_, ?_, ?_⟩
  · rfl
  · rfl
  · decide

end Session

end ApneaScoring
