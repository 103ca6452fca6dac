import ApneaScoring.Competition
import ApneaScoring.Proofs.Column
import ApneaScoring.Proofs.Number.Sum
import ApneaScoring.Proofs.Ranking

/-! Points are added in the order of the parts and rounded after each addition, so parts in
another order may turn round two athletes whose sums are close. `Settled` says where they do not.
-/

namespace ApneaScoring

/-- What the athlete's points in a part count for. -/
def ColumnPart.counted (part : ColumnPart) (results : String → Option Standing) :
    Option Binary64 :=
  (results part.discipline).bind fun s => (s.final.get .points).map (part.worth .points)

def Comparator.byPoints : Comparator :=
  tie.descending (.final .points)

theorem Comparator.compare_byPoints (s t : Standing) :
    byPoints.compare s t =
      ((Binary64.orZero (s.final.get .points)).order
        (Binary64.orZero (t.final.get .points))).swap :=
  rfl

namespace Column

variable {column column' : Column} {results other : String → Option Standing}

def counted (column : Column) (results : String → Option Standing) : List Binary64 :=
  column.parts.filterMap (·.counted results)

/-- The record of an athlete, empty without a result in the column. -/
def record (column : Column) (results : String → Option Standing) : Standing :=
  (column.standing? results).getD {}

theorem get_points_record (column : Column) (results : String → Option Standing) :
    (column.record results).final.get .points = Binary64.total (column.counted results) := by
  have hcounted : (column.contributing results).filterMap (fun entry =>
      (entry.2.final.get .points).map (entry.1.worth .points)) = column.counted results := by
    rw [contributing, List.filterMap_filterMap, counted]
    apply List.filterMap_congr
    intro part _
    rw [ColumnPart.counted]
    cases results part.discipline <;> rfl
  rw [record, standing?_eq]
  split
  · next hnone =>
      rw [← hcounted, hnone]
      rfl
  · rw [Option.getD_some, Standing.get_final_ofContributions, hcounted]

theorem compare_byPoints_record (column : Column) (results other : String → Option Standing) :
    Comparator.byPoints.compare (column.record results) (column.record other) =
      ((Binary64.summed (column.counted results)).order
        (Binary64.summed (column.counted other))).swap := by
  rw [Comparator.compare_byPoints, get_points_record, get_points_record]
  rfl

theorem counted_perm (h : column'.parts.Perm column.parts) (results : String → Option Standing) :
    (column'.counted results).Perm (column.counted results) :=
  h.filterMap _

/-- Two athletes whose order in the column is the same however its parts stand. -/
inductive Settled (column : Column) (results other : String → Option Standing) : Prop
  /-- Their points count alike in every part. -/
  | alike (h : ∀ part ∈ column.parts, part.counted results = part.counted other)
  /-- Neither sum depends on the order. -/
  | orderFree (h : Binary64.OrderFree (column.counted results))
      (h' : Binary64.OrderFree (column.counted other))
  /-- The exact sums are further apart than rounding can take the two. -/
  | apart (h : Binary64.Fits (column.counted results))
      (h' : Binary64.Fits (column.counted other))
      (hapart : Binary64.sumReach (column.counted results) +
          Binary64.sumReach (column.counted other) <
        |Binary64.exactSum (column.counted results) -
          Binary64.exactSum (column.counted other)|)

theorem counted_congr (h : ∀ part ∈ column.parts, part.counted results = part.counted other) :
    column.counted results = column.counted other :=
  List.filterMap_congr h

theorem compare_record_perm (hperm : column'.parts.Perm column.parts)
    (h : column.Settled results other) :
    Comparator.byPoints.compare (column'.record results) (column'.record other) =
      Comparator.byPoints.compare (column.record results) (column.record other) := by
  have hresults := counted_perm hperm results
  have hother := counted_perm hperm other
  rw [compare_byPoints_record, compare_byPoints_record]
  cases h with
  | alike h =>
      have h' : ∀ part ∈ column'.parts, part.counted results = part.counted other :=
        fun part hpart => h part (hperm.mem_iff.mp hpart)
      rw [counted_congr h, counted_congr h', Binary64.order_self, Binary64.order_self]
  | orderFree h h' =>
      rw [Binary64.order_of_position? (Binary64.summed_perm h hresults)
        (Binary64.summed_perm h' hother)]
  | apart h h' hapart =>
      rw [Binary64.order_summed_of_lt h h' hapart,
        Binary64.order_summed_of_lt (h.perm hresults) (h'.perm hother)
          (by rwa [Binary64.sumReach_perm hresults, Binary64.sumReach_perm hother,
            Binary64.exactSum_perm hresults, Binary64.exactSum_perm hother]),
        Binary64.exactSum_perm hresults, Binary64.exactSum_perm hother]

theorem comparatorOf_eq_byPoints {rules : List Rule}
    (hpoints : ∀ rule ∈ rules, rule.hasPoints = true)
    (hdiffer : ∃ rule ∈ rules, ∃ other ∈ rules, rule ≠ other) :
    comparatorOf rules = .byPoints := by
  have hmem (rule : Rule) : rule ∈ distinctRules rules ↔ rule ∈ rules := by
    rw [distinctRules_eq, List.mem_eraseDups]
  obtain ⟨rule, hrule, other, hother, hne⟩ := hdiffer
  rw [← hmem] at hrule hother
  rw [comparatorOf]
  split
  · next hnone =>
      rw [hnone] at hrule
      cases hrule
  · next single hone =>
      rw [hone, List.mem_singleton] at hrule hother
      exact absurd (hrule.trans hother.symm) hne
  · have hall : (distinctRules rules).all (·.hasPoints) = true := by
      rw [List.all_eq_true]
      intro rule hrule
      exact hpoints rule ((hmem rule).mp hrule)
    rw [hall, if_pos rfl]
    rfl

def ruleIn (rulesName : String → Option String) (r : Repository) (part : ColumnPart) : Rule :=
  r.get ((rulesName part.discipline).getD "")

theorem comparatorIn_eq_byPoints (hperm : column'.parts.Perm column.parts)
    {rulesName : String → Option String} {r : Repository}
    (hpoints : ∀ part ∈ column.parts, (ruleIn rulesName r part).hasPoints = true)
    (hdiffer : ∃ part ∈ column.parts, ∃ other ∈ column.parts,
      ruleIn rulesName r part ≠ ruleIn rulesName r other) :
    column'.comparatorIn rulesName r = .byPoints := by
  apply comparatorOf_eq_byPoints
  · exact List.forall_mem_map.mpr fun part hpart => hpoints part (hperm.mem_iff.mp hpart)
  · obtain ⟨part, hpart, other, hother, hne⟩ := hdiffer
    exact ⟨_, List.mem_map_of_mem (hperm.mem_iff.mpr hpart), _,
      List.mem_map_of_mem (hperm.mem_iff.mpr hother), hne⟩

variable {α : Type} {resultsOf : α → String → Option Standing} {athletes : List α}

theorem standing?_isSome_perm (h : column'.parts.Perm column.parts)
    (results : String → Option Standing) :
    (column'.standing? results).isSome = (column.standing? results).isSome := by
  rw [Bool.eq_iff_iff, Option.isSome_iff_ne_none, Option.isSome_iff_ne_none, ne_eq, ne_eq,
    standing?_eq_none, standing?_eq_none]
  simp only [h.mem_iff]

theorem entrants_eq (column : Column) (resultsOf : α → String → Option Standing)
    (athletes : List α) :
    column.entrants resultsOf athletes =
      (athletes.filter fun athlete => (column.standing? (resultsOf athlete)).isSome).map
        fun athlete => (athlete, column.record (resultsOf athlete)) := by
  unfold entrants record
  induction athletes with
  | nil => rfl
  | cons athlete athletes ih =>
      rw [List.filterMap_cons, List.filter_cons, ih]
      cases hstanding : column.standing? (resultsOf athlete) <;> simp [hstanding]

theorem rank_entrants (c : Comparator) (column : Column)
    (resultsOf : α → String → Option Standing) (athletes : List α) :
    (c.rank (·.2) (column.entrants resultsOf athletes)).map (fun entry => (entry.1, entry.2.1)) =
      c.rank (fun athlete => column.record (resultsOf athlete))
        (athletes.filter fun athlete => (column.standing? (resultsOf athlete)).isSome) := by
  rw [entrants_eq, Comparator.rank_map, List.map_map]
  exact List.map_id _

theorem rank_entrants_perm (hperm : column'.parts.Perm column.parts)
    (hsettled : ∀ athlete ∈ athletes, ∀ other ∈ athletes, athlete ≠ other →
      column.Settled (resultsOf athlete) (resultsOf other)) :
    (Comparator.byPoints.rank (·.2) (column'.entrants resultsOf athletes)).map
        (fun entry => (entry.1, entry.2.1)) =
      (Comparator.byPoints.rank (·.2) (column.entrants resultsOf athletes)).map
        fun entry => (entry.1, entry.2.1) := by
  rw [rank_entrants, rank_entrants]
  simp only [standing?_isSome_perm hperm]
  apply Comparator.rank_congr_of_mem
  intro athlete hathlete other hother
  by_cases hsame : athlete = other
  · rw [hsame, compare_byPoints_record, compare_byPoints_record, Binary64.order_self,
      Binary64.order_self]
  · exact compare_record_perm hperm (hsettled athlete (List.mem_of_mem_filter hathlete) other
      (List.mem_of_mem_filter hother) hsame)

end Column

namespace Session

variable {column column' : Column}

/-- The athletes with a record in a column, ranked. -/
def columnRanks {α : Type} (column : Column) (rulesName : String → Option String)
    (given : Option Repository) (resultsOf : α → String → Option Standing)
    (athletes : List α) : Scoring (List (Nat × α)) := do
  let comparator ← columnComparator column rulesName given
  return (comparator.rank (·.2) (column.entrants resultsOf athletes)).map fun entry =>
    (entry.1, entry.2.1)

theorem run_ordered {β : Type} (session : Session) (column : Column)
    (rulesName : String → Option String) (given : Option Repository) (f : Comparator → β) :
    (session.run (columnComparator column rulesName given >>= fun c => pure (f c))).1 =
      .ok (f (column.comparatorIn rulesName (session.consulted given))) := by
  have hcomparator := session.run_columnComparator column rulesName given
  rw [run_bind]
  rcases hrun : session.run (columnComparator column rulesName given) with ⟨result, after⟩
  rw [hrun] at hcomparator
  rw [show result = _ from hcomparator]
  rfl

theorem run_columnRanks {α : Type} (session : Session) (column : Column)
    (rulesName : String → Option String) (given : Option Repository)
    (resultsOf : α → String → Option Standing) (athletes : List α) :
    (session.run (columnRanks column rulesName given resultsOf athletes)).1 =
      .ok (((column.comparatorIn rulesName (session.consulted given)).rank (·.2)
        (column.entrants resultsOf athletes)).map fun entry => (entry.1, entry.2.1)) :=
  session.run_ordered column rulesName given _

/-- The ranks in the standings of a competition are those of the column. -/
theorem run_standings (session : Session) (c : Competition) (column : Column) :
    ((session.run (c.standings column)).1.map fun standings =>
        standings.2.map fun entry => (entry.1, entry.2.1)) =
      (session.run (columnRanks column c.rulesName none
        (fun athlete discipline => Ledger.get? discipline athlete.2) c.results)).1.map
          fun ranks => ranks.map fun entry => (entry.1, entry.2.1) := by
  have hranks (comparator : Comparator) :
      (comparator.rank (·.2) (c.entrants column)).map (fun entry => (entry.1, entry.2.1)) =
        ((comparator.rank (·.2) (column.entrants (fun athlete discipline =>
          Ledger.get? discipline athlete.2) c.results)).map
            fun entry => (entry.1, entry.2.1)).map fun entry => (entry.1, entry.2.1) := by
    rw [Competition.entrants, Comparator.rank_map, List.map_map, List.map_map]
    rfl
  rw [run_columnRanks, Competition.standings, run_ordered]
  exact congrArg Except.ok (hranks _)

/-- Different rules that all award points order the column by points, however its parts stand. A
sum of points that fit is near the exact one in every order, and athletes that are settled one by
one are all ranked the same. -/
theorem columnRanks_perm (session : Session) (hperm : column'.parts.Perm column.parts)
    (rulesName : String → Option String) (given : Option Repository)
    (hpoints : ∀ part ∈ column.parts,
      (Column.ruleIn rulesName (session.consulted given) part).hasPoints = true)
    (hdiffer : ∃ part ∈ column.parts, ∃ other ∈ column.parts,
      Column.ruleIn rulesName (session.consulted given) part ≠
        Column.ruleIn rulesName (session.consulted given) other) :
    (session.run (columnComparator column rulesName given)).1 = .ok .byPoints ∧
    (session.run (columnComparator column' rulesName given)).1 = .ok .byPoints ∧
    (∀ results, Binary64.Fits (column.counted results) →
      |(Binary64.orZero ((column'.record results).final.get .points)).toRat -
          Binary64.exactSum (column.counted results)| ≤
        Binary64.sumReach (column.counted results)) ∧
    ∀ {α : Type} (resultsOf : α → String → Option Standing) (athletes : List α),
      (∀ athlete ∈ athletes, ∀ other ∈ athletes, athlete ≠ other →
        column.Settled (resultsOf athlete) (resultsOf other)) →
      ∃ ranks,
        (session.run (columnRanks column rulesName given resultsOf athletes)).1 = .ok ranks ∧
        (session.run (columnRanks column' rulesName given resultsOf athletes)).1 = .ok ranks := by
  have hcomparator := Column.comparatorIn_eq_byPoints (.refl column.parts) hpoints hdiffer
  have hcomparator' := Column.comparatorIn_eq_byPoints hperm hpoints hdiffer
  refine ⟨?_, ?_, ?_, ?_⟩
  · rw [run_columnComparator, hcomparator]
  · rw [run_columnComparator, hcomparator']
  · intro results hfits
    have hcounted := Column.counted_perm hperm results
    rw [Column.get_points_record, ← Binary64.exactSum_perm hcounted,
      ← Binary64.sumReach_perm hcounted]
    exact (Binary64.summed_near (hfits.perm hcounted)).2
  · intro α resultsOf athletes hsettled
    refine ⟨_, ?_, session.run_columnRanks column' rulesName given resultsOf athletes⟩
    rw [run_columnRanks, hcomparator, hcomparator',
      ← Column.rank_entrants_perm hperm hsettled]

def threeParts : Column where
  parts := [{ discipline := "sta" }, { discipline := "dyn" }, { discipline := "cwt" }]

def threeReversed : Column where
  parts := [{ discipline := "cwt" }, { discipline := "dyn" }, { discipline := "sta" }]

def threeRules : String → Option String
  | "sta" => some "AIDA_STA"
  | "dyn" => some "AIDA_DYN"
  | "cwt" => some "AIDA_CWT"
  | _ => none

theorem threeReversed_perm : threeReversed.parts.Perm threeParts.parts :=
  List.reverse_perm threeParts.parts

def pointsOf (sta dyn cwt : Option Binary64) : String → Option Standing
  | "sta" => sta.map fun points => { final := .only .points (some points) }
  | "dyn" => dyn.map fun points => { final := .only .points (some points) }
  | "cwt" => cwt.map fun points => { final := .only .points (some points) }
  | _ => none

def levelResults (athlete : String) : String → Option Standing :=
  if athlete = "anna" then
    pointsOf (some (.ofInt 50)) (some (.ofInt 40)) (some (.ofInt 30))
  else pointsOf (some (.ofInt 70)) none (some (.ofInt 50))

def pointTenths (n : Nat) : Option Binary64 :=
  some (.ofDecimal false n (-1))

def crossedResults (athlete : String) : String → Option Standing :=
  if athlete = "anna" then pointsOf (pointTenths 1) (pointTenths 2) (pointTenths 3)
  else pointsOf (pointTenths 3) (pointTenths 2) (pointTenths 1)

theorem hasPoints_threeRules : ∀ part ∈ threeParts.parts,
    (Column.ruleIn threeRules (({} : Session).consulted none) part).hasPoints = true := by
  decide

theorem threeRules_differ : ∃ part ∈ threeParts.parts, ∃ other ∈ threeParts.parts,
    Column.ruleIn threeRules (({} : Session).consulted none) part ≠
      Column.ruleIn threeRules (({} : Session).consulted none) other := by
  refine ⟨{ discipline := "sta" }, by decide, { discipline := "dyn" }, by decide, ?_⟩
  intro hsame
  exact absurd (congrArg (fun rule : Rule => rule.name) hsame) (by decide)

theorem levelResults_settled (athlete other : String) :
    threeParts.Settled (levelResults athlete) (levelResults other) := by
  have hfree (athlete : String) :
      Binary64.OrderFree (threeParts.counted (levelResults athlete)) := by
    unfold levelResults
    split
    · have hwhole : List.Forall₂ Binary64.IsWhole [.ofInt 50, .ofInt 40, .ofInt 30] [50, 40, 30] :=
        .cons (Binary64.isWhole_ofInt (by decide))
          (.cons (Binary64.isWhole_ofInt (by decide))
            (.cons (Binary64.isWhole_ofInt (by decide)) .nil))
      exact Binary64.orderFree_of_isWhole hwhole (by decide)
    · exact .inl (by decide)
  exact .orderFree (hfree athlete) (hfree other)

theorem columnRanks_perm_level : ∃ ranks,
    (({} : Session).run (columnRanks threeParts threeRules none levelResults
      ["anna", "bea"])).1 = .ok ranks ∧
    (({} : Session).run (columnRanks threeReversed threeRules none levelResults
      ["anna", "bea"])).1 = .ok ranks := by
  obtain ⟨-, -, -, hranks⟩ := columnRanks_perm {} threeReversed_perm threeRules none
    hasPoints_threeRules threeRules_differ
  exact hranks levelResults ["anna", "bea"] fun athlete _ other _ _ =>
    levelResults_settled athlete other

theorem rank_crossed :
    (∀ athlete ∈ ["anna", "bea"], ∀ discipline ∈ ["sta", "dyn", "cwt"],
      ∀ s ∈ crossedResults athlete discipline, s.IsFinite) ∧
    (Comparator.byPoints.rank (·.2) (threeParts.entrants crossedResults ["anna", "bea"])).map
      (fun entry => (entry.1, entry.2.1)) = [(1, "anna"), (2, "bea")] ∧
    (Comparator.byPoints.rank (·.2) (threeReversed.entrants crossedResults ["anna", "bea"])).map
      (fun entry => (entry.1, entry.2.1)) = [(1, "bea"), (2, "anna")] := by
  decide +kernel

/-- A tenth, two tenths and three tenths sum to one bit more than the same from the other end, so the
ranks of the two athletes turn round with the parts. -/
theorem columnRanks_crossed :
    threeReversed.parts.Perm threeParts.parts ∧
    (∀ part ∈ threeParts.parts,
      (Column.ruleIn threeRules (({} : Session).consulted none) part).hasPoints = true) ∧
    (∃ part ∈ threeParts.parts, ∃ other ∈ threeParts.parts,
      Column.ruleIn threeRules (({} : Session).consulted none) part ≠
        Column.ruleIn threeRules (({} : Session).consulted none) other) ∧
    (∀ athlete ∈ ["anna", "bea"], ∀ discipline ∈ ["sta", "dyn", "cwt"],
      ∀ s ∈ crossedResults athlete discipline, s.IsFinite) ∧
    (({} : Session).run (columnRanks threeParts threeRules none crossedResults
      ["anna", "bea"])).1 = .ok [(1, "anna"), (2, "bea")] ∧
    (({} : Session).run (columnRanks threeReversed threeRules none crossedResults
      ["anna", "bea"])).1 = .ok [(1, "bea"), (2, "anna")] := by
  obtain ⟨hfinite, hranks, hreversed⟩ := rank_crossed
  refine ⟨threeReversed_perm, hasPoints_threeRules, threeRules_differ, hfinite, ?_, ?_⟩
  · rw [run_columnRanks, Column.comparatorIn_eq_byPoints (.refl threeParts.parts)
      hasPoints_threeRules threeRules_differ, hranks]
  · rw [run_columnRanks, Column.comparatorIn_eq_byPoints threeReversed_perm
      hasPoints_threeRules threeRules_differ, hreversed]

end Session

end ApneaScoring
