import ApneaScoring.Column
import ApneaScoring.Proofs.Reconciliation

namespace ApneaScoring

namespace Binary64

/-- The sum from left to right; of no numbers there is none. -/
def total : List Binary64 → Option Binary64
  | [] => none
  | x :: xs => some (xs.foldl (· + ·) x)

theorem total_filterMap_singleton {α : Type} (f : α → Option Binary64) (a : α) :
    total ([a].filterMap f) = f a := by
  rw [List.filterMap_cons]
  cases f a <;> rfl

theorem foldl_addPresent_some (values : List (Option Binary64)) (x : Binary64) :
    values.foldl addPresent (some x) = some ((values.filterMap id).foldl (· + ·) x) := by
  induction values generalizing x with
  | nil => rfl
  | cons value values ih =>
      cases value with
      | none => exact ih x
      | some y => exact ih (x + y)

theorem foldl_addPresent (values : List (Option Binary64)) :
    values.foldl addPresent none = total (values.filterMap id) := by
  induction values with
  | nil => rfl
  | cons value values ih =>
      cases value with
      | none => exact ih
      | some x => exact foldl_addPresent_some values x

end Binary64

namespace Performance

theorem get_foldl_add (performances : List Performance) (p : Performance) (c : Component) :
    (performances.foldl add p).get c =
      (performances.map (·.get c)).foldl Binary64.addPresent (p.get c) := by
  induction performances generalizing p with
  | nil => rfl
  | cons q performances ih =>
      rw [List.foldl_cons, ih, get_add]
      rfl

theorem get_sum (performances : List Performance) (c : Component) :
    (sum performances).get c = Binary64.total (performances.filterMap (·.get c)) := by
  rw [sum, get_foldl_add, get_empty, Binary64.foldl_addPresent, List.filterMap_map]
  rfl

end Performance

namespace Card

@[simp] theorem combine_absent (card : Card) : card.combine absent = card := by
  cases card <;> rfl

theorem combineAll_eq_iff {cards : List Card} (hne : cards ≠ []) {card : Card} :
    combineAll cards = card ↔ card ∈ cards ∧ ∀ other ∈ cards, other.severity ≤ card.severity := by
  have hmost := severity_le_foldl_combine cards absent
  have hmem : combineAll cards ∈ cards := by
    obtain ⟨first, rest, rfl⟩ := List.exists_cons_of_ne_nil hne
    rw [combineAll, List.foldl_cons, absent_combine]
    exact foldl_combine_mem rest first
  constructor
  · rintro rfl
    exact ⟨hmem, fun other hother => hmost other (List.mem_cons_of_mem absent hother)⟩
  · rintro ⟨hcard, hle⟩
    exact severity_injective
      (Nat.le_antisymm (hle _ hmem) (hmost card (List.mem_cons_of_mem absent hcard)))

end Card

/-- What a value of a final performance counts for in a part: points are scaled by its
coefficient if it has one. -/
def ColumnPart.worth (part : ColumnPart) (c : Component) (x : Binary64) : Binary64 :=
  match c, part.coefficient with
  | .points, some k => x * k
  | _, _ => x

theorem ColumnPart.get_scalePoints (part : ColumnPart) (p : Performance) (c : Component) :
    (p.scalePoints part.coefficient).get c = (p.get c).map (part.worth c) := by
  obtain ⟨duration, depth, distance, points⟩ := p
  unfold Performance.scalePoints worth
  cases part.coefficient with
  | none => cases c <;> simp [Performance.get]
  | some k => cases points <;> cases c <;> simp [Performance.get]

theorem ColumnPart.worth_of_coefficient {part : ColumnPart} (h : part.coefficient = none)
    (c : Component) : part.worth c = fun x => x := by
  funext x
  unfold worth
  rw [h]
  cases c <;> rfl

abbrev Contribution := ColumnPart × Standing

namespace Standing

variable {entries : List Contribution} {s t : Standing}

theorem ext_get (hannounced : ∀ c, s.announced.get c = t.announced.get c)
    (hrealized : ∀ c, s.realized.get c = t.realized.get c)
    (hfinal : ∀ c, s.final.get c = t.final.get c) (hcard : s.card = t.card) : s = t := by
  cases s
  cases t
  rw [mk.injEq]
  exact ⟨Performance.ext_get hannounced, Performance.ext_get hrealized,
    Performance.ext_get hfinal, hcard⟩

/-- The record in which each component is the sum of what is there, and the card the most
severe. -/
structure IsTotalOf (entries : List Contribution) (s : Standing) : Prop where
  announced : ∀ c, s.announced.get c =
    Binary64.total (entries.filterMap fun entry => entry.2.announced.get c)
  realized : ∀ c, s.realized.get c =
    Binary64.total (entries.filterMap fun entry => entry.2.realized.get c)
  final : ∀ c, s.final.get c =
    Binary64.total (entries.filterMap fun entry => (entry.2.final.get c).map (entry.1.worth c))
  card_mem : s.card ∈ entries.map (·.2.card)
  severity_le : ∀ entry ∈ entries, entry.2.card.severity ≤ s.card.severity

def ofContributions (entries : List Contribution) : Standing :=
  combine (entries.map (·.2)) (entries.map (·.1.coefficient))

theorem scaledFinals_map (entries : List Contribution) :
    scaledFinals (entries.map (·.2)) (entries.map (·.1.coefficient)) =
      entries.map fun entry => entry.2.final.scalePoints entry.1.coefficient := by
  induction entries with
  | nil => rfl
  | cons entry entries ih =>
      rw [List.map_cons, List.map_cons, List.map_cons, scaledFinals, ih]

theorem get_announced_ofContributions (entries : List Contribution) (c : Component) :
    (ofContributions entries).announced.get c =
      Binary64.total (entries.filterMap fun entry => entry.2.announced.get c) := by
  rw [ofContributions, combine, Performance.get_sum, List.map_map, List.filterMap_map]
  rfl

theorem get_realized_ofContributions (entries : List Contribution) (c : Component) :
    (ofContributions entries).realized.get c =
      Binary64.total (entries.filterMap fun entry => entry.2.realized.get c) := by
  rw [ofContributions, combine, Performance.get_sum, List.map_map, List.filterMap_map]
  rfl

theorem get_final_ofContributions (entries : List Contribution) (c : Component) :
    (ofContributions entries).final.get c = Binary64.total
      (entries.filterMap fun entry => (entry.2.final.get c).map (entry.1.worth c)) := by
  rw [ofContributions, combine, Performance.get_sum, scaledFinals_map, List.filterMap_map]
  simp only [Function.comp_def, ColumnPart.get_scalePoints]

theorem card_ofContributions (entries : List Contribution) :
    (ofContributions entries).card = Card.combineAll (entries.map (·.2.card)) := by
  rw [← Function.comp_def, ← List.map_map]
  rfl

theorem isTotalOf_iff (hne : entries ≠ []) :
    s.IsTotalOf entries ↔ ofContributions entries = s := by
  have hcards : entries.map (·.2.card) ≠ [] := by
    rw [ne_eq, List.map_eq_nil_iff]
    exact hne
  have hcard : Card.combineAll (entries.map (·.2.card)) = s.card ↔
      s.card ∈ entries.map (·.2.card) ∧
        ∀ entry ∈ entries, entry.2.card.severity ≤ s.card.severity := by
    rw [Card.combineAll_eq_iff hcards, List.forall_mem_map]
  constructor
  · intro h
    apply ext_get
    · intro c
      rw [get_announced_ofContributions, h.announced]
    · intro c
      rw [get_realized_ofContributions, h.realized]
    · intro c
      rw [get_final_ofContributions, h.final]
    · rw [card_ofContributions, hcard]
      exact ⟨h.card_mem, h.severity_le⟩
  · rintro rfl
    obtain ⟨hmem, hle⟩ := hcard.mp (card_ofContributions entries).symm
    exact ⟨get_announced_ofContributions entries, get_realized_ofContributions entries,
      get_final_ofContributions entries, hmem, hle⟩

def isBlank (entry : Contribution) : Bool :=
  entry.2 = {}

theorem filterMap_filter_isBlank {β : Type} {f : Contribution → Option β}
    (h : ∀ part, f (part, {}) = none) (entries : List Contribution) :
    (entries.filter (!isBlank ·)).filterMap f = entries.filterMap f := by
  induction entries with
  | nil => rfl
  | cons entry entries ih =>
      obtain ⟨part, s⟩ := entry
      by_cases hblank : s = {}
      · subst hblank
        rw [List.filter_cons_of_neg (by simp [isBlank]), ih, List.filterMap_cons_none (h part)]
      · rw [List.filter_cons_of_pos (by simp [isBlank, hblank]), List.filterMap_cons, ih,
          List.filterMap_cons]

theorem foldl_combine_filter_isBlank (entries : List Contribution) (first : Card) :
    ((entries.filter (!isBlank ·)).map (·.2.card)).foldl Card.combine first =
      (entries.map (·.2.card)).foldl Card.combine first := by
  induction entries generalizing first with
  | nil => rfl
  | cons entry entries ih =>
      obtain ⟨part, s⟩ := entry
      by_cases hblank : s = {}
      · subst hblank
        rw [List.filter_cons_of_neg (by simp [isBlank]), ih, List.map_cons, List.foldl_cons,
          Card.combine_absent]
      · rw [List.filter_cons_of_pos (by simp [isBlank, hblank]), List.map_cons, List.foldl_cons,
          ih, List.map_cons, List.foldl_cons]

/-- Results without anything in them are not seen in the record. -/
theorem ofContributions_filter_isBlank (entries : List Contribution) :
    ofContributions (entries.filter (!isBlank ·)) = ofContributions entries := by
  apply ext_get
  · intro c
    rw [get_announced_ofContributions, get_announced_ofContributions,
      filterMap_filter_isBlank fun _ => Performance.get_empty c]
  · intro c
    rw [get_realized_ofContributions, get_realized_ofContributions,
      filterMap_filter_isBlank fun _ => Performance.get_empty c]
  · intro c
    rw [get_final_ofContributions, get_final_ofContributions, filterMap_filter_isBlank]
    intro part
    exact congrArg (Option.map _) (Performance.get_empty c)
  · rw [card_ofContributions, card_ofContributions]
    exact foldl_combine_filter_isBlank entries .absent

theorem ofContributions_singleton {part : ColumnPart} (hpart : part.coefficient = none)
    (s : Standing) : ofContributions [(part, s)] = s := by
  apply ext_get
  · intro c
    rw [get_announced_ofContributions, Binary64.total_filterMap_singleton]
  · intro c
    rw [get_realized_ofContributions, Binary64.total_filterMap_singleton]
  · intro c
    rw [get_final_ofContributions, Binary64.total_filterMap_singleton,
      ColumnPart.worth_of_coefficient hpart, Option.map_id']
  · exact Card.absent_combine s.card

end Standing

namespace Column

variable {column : Column} {results : String → Option Standing}

/-- The parts in which the athlete has a result, in order, each beside it. -/
def contributing (column : Column) (results : String → Option Standing) : List Contribution :=
  column.parts.filterMap fun part => (results part.discipline).map (part, ·)

theorem contributing_eq_nil : column.contributing results = [] ↔
    ∀ part ∈ column.parts, results part.discipline = none := by
  simp [contributing]

theorem contributions_eq (column : Column) (results : String → Option Standing) :
    column.contributions results =
      (column.contributing results).map fun entry => (entry.2, entry.1.coefficient) := by
  rw [contributions, contributing, List.map_filterMap]
  simp [Function.comp_def]

theorem standing?_eq (column : Column) (results : String → Option Standing) :
    column.standing? results =
      if column.contributing results = [] then none
      else some (.ofContributions (column.contributing results)) := by
  have hresults (entries : List Contribution) :
      (entries.map fun entry => (entry.2, entry.1.coefficient)).map (·.1) =
        entries.map (·.2) := List.map_map
  have hcoefficients (entries : List Contribution) :
      (entries.map fun entry => (entry.2, entry.1.coefficient)).map (·.2) =
        entries.map (·.1.coefficient) := List.map_map
  rw [standing?, contributions_eq]
  cases column.contributing results with
  | nil => rfl
  | cons entry entries =>
      rw [if_neg (List.cons_ne_nil _ _), Standing.ofContributions, ← hresults, ← hcoefficients]
      rfl

theorem standing?_eq_none : column.standing? results = none ↔
    ∀ part ∈ column.parts, results part.discipline = none := by
  rw [← contributing_eq_nil, standing?_eq]
  split <;> simp [*]

theorem contributing_ne_nil {part : ColumnPart} (hpart : part ∈ column.parts)
    (hresult : (results part.discipline).isSome = true) : column.contributing results ≠ [] := by
  intro hnil
  rw [contributing_eq_nil.mp hnil part hpart] at hresult
  cases hresult

theorem standing?_congr {column' : Column} {results' : String → Option Standing}
    (hne : column.contributing results ≠ []) (hne' : column'.contributing results' ≠ [])
    (h : (column.contributing results).filter (!Standing.isBlank ·) =
      (column'.contributing results').filter (!Standing.isBlank ·)) :
    column.standing? results = column'.standing? results' := by
  rw [standing?_eq, standing?_eq, if_neg hne, if_neg hne',
    ← Standing.ofContributions_filter_isBlank, h, Standing.ofContributions_filter_isBlank]

theorem contributing_filter_of_blank {before after : List ColumnPart} {part : ColumnPart}
    (hparts : column.parts = before ++ part :: after)
    (hblank : results part.discipline = some {}) :
    (column.contributing results).filter (!Standing.isBlank ·) =
      (contributing { column with parts := before ++ after } results).filter
        (!Standing.isBlank ·) := by
  have hdropped : Standing.isBlank (part, {}) = true := by simp [Standing.isBlank]
  simp [contributing, hparts, hblank, hdropped]

def without (results : String → Option Standing) (discipline : String) :
    String → Option Standing :=
  fun other => if other = discipline then none else results other

theorem contributing_filter_without {discipline : String}
    (hblank : results discipline = some {}) :
    (column.contributing results).filter (!Standing.isBlank ·) =
      (column.contributing (without results discipline)).filter (!Standing.isBlank ·) := by
  unfold contributing without
  induction column.parts with
  | nil => rfl
  | cons part parts ih =>
      by_cases hsame : part.discipline = discipline
      · have hdropped : Standing.isBlank (part, {}) = true := by simp [Standing.isBlank]
        simp [hsame, hblank, hdropped, ih]
      · rw [List.filterMap_cons, List.filterMap_cons, if_neg hsame]
        cases results part.discipline with
        | none => exact ih
        | some s =>
            simp only [Option.map_some]
            rw [List.filter_cons, List.filter_cons, ih]

/-- A column has a record of an athlete when a part of it has a result: of each component the
sum of what is there, final points scaled by the part's own coefficient, and the most severe
card. A result without anything in it adds nothing to others, and a single part without a
coefficient hands its result on. -/
theorem standing?_isTotalOf (column : Column) (results : String → Option Standing) :
    (column.standing? results = none ↔ ∀ part ∈ column.parts, results part.discipline = none) ∧
    ((∃ part ∈ column.parts, (results part.discipline).isSome = true) → ∀ s,
      column.standing? results = some s ↔ s.IsTotalOf (column.contributing results)) ∧
    (∀ before part after, column.parts = before ++ part :: after →
      results part.discipline = some {} →
      (∃ other ∈ before ++ after, (results other.discipline).isSome = true) →
      column.standing? results = standing? { column with parts := before ++ after } results) ∧
    (∀ discipline, results discipline = some {} →
      (∃ part ∈ column.parts, part.discipline ≠ discipline ∧
        (results part.discipline).isSome = true) →
      column.standing? results = column.standing? (without results discipline)) ∧
    ∀ discipline, column.parts = [{ discipline }] →
      column.standing? results = results discipline := by
  refine ⟨standing?_eq_none, ?_, ?_, ?_, ?_⟩
  · rintro ⟨part, hpart, hresult⟩ s
    have hne := contributing_ne_nil hpart hresult
    rw [Standing.isTotalOf_iff hne, standing?_eq, if_neg hne, Option.some_inj]
  · rintro before part after hparts hblank ⟨other, hother, hresult⟩
    have hmem : other ∈ column.parts := by
      rw [hparts]
      rcases List.mem_append.mp hother with hbefore | hafter
      · exact List.mem_append_left _ hbefore
      · exact List.mem_append_right _ (List.mem_cons_of_mem part hafter)
    have hkept : contributing { column with parts := before ++ after } results ≠ [] :=
      contributing_ne_nil hother hresult
    exact standing?_congr (contributing_ne_nil hmem hresult) hkept
      (contributing_filter_of_blank hparts hblank)
  · rintro discipline hblank ⟨part, hpart, hne, hresult⟩
    have hkept : (without results discipline part.discipline).isSome = true := by
      rw [without, if_neg hne]
      exact hresult
    exact standing?_congr (contributing_ne_nil hpart hresult)
      (contributing_ne_nil hpart hkept) (contributing_filter_without hblank)
  · intro discipline hparts
    rw [standing?_eq, contributing, hparts]
    cases hresult : results discipline with
    | none => simp [hresult]
    | some s => simp [hresult, Standing.ofContributions_singleton]

def fourParts : Column where
  parts := [{ discipline := "sta", coefficient := some (.ofDecimal false 2 0) },
    { discipline := "dyn" }, { discipline := "cwt" }, { discipline := "sta" }]

def resultsOfFour : String → Option Standing
  | "sta" => some
      { announced := { duration := some (.ofDecimal false 100 0) }
        realized := { duration := some (.ofDecimal false 90 0) }
        final := { points := some (.ofDecimal false 16 0) }
        card := .yellow }
  | "cwt" => some {}
  | _ => none

def totalOfFour : Standing where
  announced := { duration := some (.ofDecimal false 200 0) }
  realized := { duration := some (.ofDecimal false 180 0) }
  final := { points := some (.ofDecimal false 48 0) }
  card := .yellow

theorem standing?_isTotalOf_fourParts :
    totalOfFour.IsTotalOf (fourParts.contributing resultsOfFour) ∧
    standing? { fourParts with parts := fourParts.parts.take 2 ++ fourParts.parts.drop 3 }
      resultsOfFour = some totalOfFour ∧
    fourParts.standing? (without resultsOfFour "cwt") = some totalOfFour := by
  have hrecord : fourParts.standing? resultsOfFour = some totalOfFour := by decide +kernel
  have hmem : { discipline := "sta" } ∈ fourParts.parts := by decide
  obtain ⟨-, htotal, hblank, hwithout, -⟩ := standing?_isTotalOf fourParts resultsOfFour
  refine ⟨(htotal ⟨_, hmem, rfl⟩ _).mp hrecord, ?_, ?_⟩
  · rw [← hrecord]
    exact (hblank _ _ _ rfl rfl ⟨{ discipline := "sta" }, by decide, rfl⟩).symm
  · rw [← hrecord]
    exact (hwithout "cwt" rfl ⟨_, hmem, by decide, rfl⟩).symm

end Column

end ApneaScoring
