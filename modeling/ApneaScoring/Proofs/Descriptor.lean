import ApneaScoring.Proofs.Calculation.RoundTrip
import ApneaScoring.Proofs.Calculation.Strictness
import ApneaScoring.Rule.Descriptor
import ApneaScoring.Session
import Mathlib.Data.List.Forall2

namespace ApneaScoring

theorem mapM_eq_ok_iff {α β ε : Type} {f : α → Except ε β} {xs : List α} {ys : List β} :
    xs.mapM f = .ok ys ↔ List.Forall₂ (fun x y => f x = .ok y) xs ys := by
  induction xs generalizing ys with
  | nil =>
      constructor
      · intro h
        cases h
        exact .nil
      · intro h
        cases h
        rfl
  | cons x xs ih =>
      rw [List.mapM_cons]
      constructor
      · intro h
        cases hhead : f x with
        | error e =>
            rw [hhead] at h
            cases h
        | ok y =>
            cases htail : xs.mapM f with
            | error e =>
                rw [hhead, htail] at h
                cases h
            | ok rest =>
                rw [hhead, htail] at h
                cases h
                exact .cons hhead (ih.mp htail)
      · rintro (_ | ⟨hhead, htail⟩)
        rw [hhead, ih.mpr htail]
        rfl

namespace Literal

theorem toDatum_injective {a b : Literal} (h : a.toDatum = b.toDatum) : a = b := by
  apply Option.some.inj
  rw [← ofDatum?_toDatum a, h, ofDatum?_toDatum]

end Literal

namespace Operator

theorem name_injective {op op' : Operator} (h : op.name = op'.name) : op = op' := by
  apply Option.some.inj
  rw [← ofName?_name op, h, ofName?_name]

theorem name_ne (op : Operator) :
    op.name ≠ "Constant" ∧ op.name ≠ "Variable" ∧ op.name ≠ "Ceiling" ∧ op.name ≠ "" := by
  cases op <;> decide

end Operator

namespace Calculation

variable {a b c c' : Calculation} {op : Operator} {d : Datum}

theorem toWire_ceiling_eq_ok :
    (ceiling a).toWire = .ok d ↔
      ∃ w, a.toWire = .ok w ∧ wireMap "Ceiling" [("argumentA", w)] = d := by
  simp only [toWire]
  cases a.toWire <;> simp [bind, Except.bind, pure, Except.pure]

theorem toWire_binary_eq_ok :
    (binary op a b).toWire = .ok d ↔ ∃ v w, a.toWire = .ok v ∧ b.toWire = .ok w ∧
      wireMap op.name [("argumentA", v), ("argumentB", w)] = d := by
  simp only [toWire]
  cases a.toWire with
  | error e => simp [bind, Except.bind]
  | ok v => cases b.toWire <;> simp [bind, Except.bind, pure, Except.pure]

def operation : Calculation → String
  | constant _ => "Constant"
  | .variable _ => "Variable"
  | ceiling _ => "Ceiling"
  | binary op _ _ => op.name
  | foreign _ => ""

theorem get?_operation_of_toWire (hgenuine : c.IsGenuine) (h : c.toWire = .ok d) :
    d.get? "operation" = some (.text c.operation) := by
  cases c with
  | constant value =>
      cases h
      exact get?_operation _ _
  | «variable» name =>
      cases h
      exact get?_operation _ _
  | ceiling argument =>
      obtain ⟨w, -, rfl⟩ := toWire_ceiling_eq_ok.mp h
      exact get?_operation _ _
  | binary op left right =>
      obtain ⟨v, w, -, -, rfl⟩ := toWire_binary_eq_ok.mp h
      exact get?_operation _ _
  | foreign value => exact absurd rfl (hgenuine _ (self_mem_parts _) value)

theorem operation_eq_of_toWire (h : c.IsGenuine) (h' : c'.IsGenuine) (hc : c.toWire = .ok d)
    (hc' : c'.toWire = .ok d) : c'.operation = c.operation := by
  have hoperation := get?_operation_of_toWire h hc
  rw [get?_operation_of_toWire h' hc'] at hoperation
  simpa using hoperation

theorem toWire_injective (h : c.IsGenuine) (h' : c'.IsGenuine) (hc : c.toWire = .ok d)
    (hc' : c'.toWire = .ok d) : c = c' := by
  induction c generalizing c' d with
  | constant value =>
      have hoperation := operation_eq_of_toWire h h' hc hc'
      cases c' with
      | constant value' =>
          cases hc
          have hvalue : value'.toDatum = value.toDatum := by simpa [toWire, wireMap] using hc'
          rw [Literal.toDatum_injective hvalue]
      | _ => simp [operation, Operator.name_ne] at hoperation
  | «variable» name =>
      have hoperation := operation_eq_of_toWire h h' hc hc'
      cases c' with
      | «variable» name' =>
          cases hc
          have hname : name' = name := by simpa [toWire, wireMap] using hc'
          rw [hname]
      | _ => simp [operation, Operator.name_ne] at hoperation
  | ceiling argument ih =>
      have hoperation := operation_eq_of_toWire h h' hc hc'
      cases c' with
      | ceiling argument' =>
          obtain ⟨w, hw, rfl⟩ := toWire_ceiling_eq_ok.mp hc
          obtain ⟨w', hw', hwire⟩ := toWire_ceiling_eq_ok.mp hc'
          obtain rfl : w' = w := by simpa [wireMap] using hwire
          rw [ih (isGenuine_ceiling.mp h) (isGenuine_ceiling.mp h') hw hw']
      | _ => simp [operation, Operator.name_ne] at hoperation
  | binary op left right ihLeft ihRight =>
      have hoperation := operation_eq_of_toWire h h' hc hc'
      cases c' with
      | binary op' left' right' =>
          obtain rfl : op' = op := Operator.name_injective hoperation
          obtain ⟨v, w, hv, hw, rfl⟩ := toWire_binary_eq_ok.mp hc
          obtain ⟨v', w', hv', hw', hwire⟩ := toWire_binary_eq_ok.mp hc'
          obtain ⟨rfl, rfl⟩ : v' = v ∧ w' = w := by simpa [wireMap] using hwire
          rw [isGenuine_binary] at h h'
          rw [ihLeft h.1 h'.1 hv hv', ihRight h.2 h'.2 hw hw']
      | _ => simp [operation, Ne.symm, Operator.name_ne] at hoperation
  | foreign value => exact absurd rfl (h _ (self_mem_parts _) value)

theorem describeCalculation_injective {given given' : Option Calculation}
    (h : ∀ c ∈ given, c.IsGenuine) (h' : ∀ c ∈ given', c.IsGenuine)
    (hd : describeCalculation given = .ok d) (hd' : describeCalculation given' = .ok d) :
    given = given' := by
  cases given with
  | none =>
      cases given' with
      | none => rfl
      | some c' =>
          obtain ⟨entries, hwire⟩ := exists_toWire (h' c' rfl)
          cases hd
          cases hwire.symm.trans hd'
  | some c =>
      cases given' with
      | none =>
          obtain ⟨entries, hwire⟩ := exists_toWire (h c rfl)
          cases hd'
          cases hwire.symm.trans hd
      | some c' => rw [toWire_injective (h c rfl) (h' c' rfl) hd hd']

theorem exists_describeCalculation {given : Option Calculation}
    (h : ∀ c ∈ given, c.IsGenuine) : ∃ d, describeCalculation given = .ok d := by
  cases given with
  | none => exact ⟨_, rfl⟩
  | some c =>
      obtain ⟨entries, hwire⟩ := exists_toWire (h c rfl)
      exact ⟨_, hwire⟩

def isPlain : Calculation → Bool
  | constant (.float _) => true
  | constant (.integer _) => false
  | .variable _ => true
  | ceiling argument => argument.isPlain
  | binary _ left right => left.isPlain && right.isPlain
  | foreign _ => false

theorem isPlain_iff : c.isPlain = true ↔ c.IsGenuine ∧ c.HasFloats := by
  induction c with
  | constant value => cases value <;> simp [isPlain, IsGenuine, HasFloats]
  | «variable» name => simp [isPlain, IsGenuine, HasFloats]
  | ceiling argument ih => simp [isPlain, ih]
  | binary op left right ihLeft ihRight =>
      simp only [isPlain, Bool.and_eq_true, ihLeft, ihRight, isGenuine_binary, hasFloats_binary]
      exact and_and_and_comm
  | foreign value => simp [isPlain, IsGenuine]

/-- Whoever reads the value computes what the tree does: always where no variable is without
a name, and in any case where there is a number to compute. -/
def IsRecomputedFrom (c : Calculation) (d : Datum) : Prop :=
  (c.IsNamed → ∃ read, ofWire d = .ok read ∧ ∀ vars, read.evaluate vars = c.evaluate vars) ∧
  ∀ vars x, c.evaluate vars = .ok (some x) →
    ∃ read, ofWire d = .ok read ∧ read.evaluate vars = .ok (some x)

theorem isNamed_of_number {vars : Variables} {x : Binary64}
    (h : c.evaluate vars = .ok (some x)) : c.IsNamed := by
  rintro p hp name rfl rfl
  obtain ⟨value, hvalue⟩ := exists_value_of_number h hp
  exact absurd (Variables.mem_names hvalue) (by decide)

theorem isRecomputedFrom (hgenuine : c.IsGenuine) (hfloats : c.HasFloats)
    (h : c.toWire = .ok d) : c.IsRecomputedFrom d := by
  have hread (hnamed : c.IsNamed) : ofWire d = .ok c := by
    have hreread := (reread_eq_ok hgenuine).mpr
      ⟨toFloats_eq_self hfloats, hnamed, hfloats.isInRange⟩
    unfold reread at hreread
    rw [h] at hreread
    exact hreread
  exact ⟨fun hnamed => ⟨c, hread hnamed, fun vars => rfl⟩,
    fun vars x hx => ⟨c, hread (isNamed_of_number hx), hx⟩⟩

end Calculation

theorem Card.name_injective {card card' : Card} (h : card.name = card'.name) : card = card' := by
  rw [← ofName_name card, h, ofName_name]

theorem componentText_injective {c c' : Option Component}
    (h : componentText c = componentText c') : c = c' := by
  rcases c with _ | _ | _ | _ | _ <;> rcases c' with _ | _ | _ | _ | _ <;>
    first | rfl | simp [componentText, Component.name] at h

namespace Entry

variable {e e' : Entry} {d : Datum}

def forScoring (e : Entry) : Entry :=
  { e with inputUnit := none }

theorem describe_eq_ok : e.describe = .ok d ↔
    ∃ calculation, describeCalculation e.calculation = .ok calculation ∧
      .map
        [(.text "id", .text e.id),
          (.text "reason", .text e.reason),
          (.text "shortReason", .text e.shortReason),
          (.text "hasInput", .bool e.hasInput),
          (.text "inputName", .text (e.inputName.getD "")),
          (.text "inputUnit", .text (e.inputUnit.getD "")),
          (.text "cardResult", .text e.card.name),
          (.text "calculation", calculation)] = d := by
  unfold describe
  cases describeCalculation e.calculation <;> simp [bind, Except.bind, pure, Except.pure]

theorem exists_describe (h : ∀ c ∈ e.calculation, c.IsGenuine) : ∃ d, e.describe = .ok d := by
  obtain ⟨w, hw⟩ := Calculation.exists_describeCalculation h
  exact ⟨_, describe_eq_ok.mpr ⟨w, hw, rfl⟩⟩

theorem inputName_eq (hhas : e.hasInput = e'.hasInput)
    (hname : e.inputName.getD "" = e'.inputName.getD "") : e.inputName = e'.inputName := by
  unfold hasInput at hhas
  cases h : e.inputName <;> cases h' : e'.inputName <;> simp_all

theorem forScoring_eq_of_describe (h : ∀ c ∈ e.calculation, c.IsGenuine)
    (h' : ∀ c ∈ e'.calculation, c.IsGenuine) (hd : e.describe = .ok d)
    (hd' : e'.describe = .ok d) : e.forScoring = e'.forScoring := by
  obtain ⟨w, hw, rfl⟩ := describe_eq_ok.mp hd
  obtain ⟨w', hw', hfields⟩ := describe_eq_ok.mp hd'
  simp only [Datum.map.injEq, List.cons.injEq, Prod.mk.injEq, Datum.text.injEq,
    Datum.bool.injEq, true_and, and_true] at hfields
  obtain ⟨hid, hreason, hshort, hhas, hname, -, hcard, rfl⟩ := hfields
  have hcalculation := Calculation.describeCalculation_injective h h' hw hw'
  simp only [forScoring, Entry.mk.injEq, EntryFields.mk.injEq, and_true]
  exact ⟨hid.symm, hreason.symm, hshort.symm, (Card.name_injective hcard).symm, hcalculation,
    (inputName_eq hhas hname).symm⟩

end Entry

namespace Rule

variable {r r' : Rule} {d : Datum}

/-- The rule without its comparator and the units of its inputs. -/
def forScoring (r : Rule) : Rule where
  toRuleFields :=
    { r.toRuleFields with
      penalizations := r.penalizations.map (·.forScoring)
      comparator := .tie }
  ids_nodup := by
    simpa [RuleFields.ids, Function.comp_def, Entry.forScoring] using r.ids_nodup
  points_calculated := r.points_calculated

theorem entry?_forScoring (r : Rule) (id : Datum) :
    r.forScoring.entry? id = (r.entry? id).map (·.forScoring) :=
  List.find?_map

theorem ids_forScoring (r : Rule) : r.forScoring.ids = r.ids := by
  simp [forScoring, RuleFields.ids, Function.comp_def, Entry.forScoring]

theorem penalize_forScoring (r : Rule) (id given : Datum) (realized : Performance) :
    r.forScoring.penalize id given realized = r.penalize id given realized := by
  unfold penalize entry
  rw [entry?_forScoring, ids_forScoring]
  cases r.entry? id with
  | none => rfl
  | some e => rfl

def calculations (r : Rule) : List Calculation :=
  r.pointsCalculation.toList ++ r.shortCalculation.toList ++
    r.penalizations.filterMap (·.calculation)

/-- Every calculation of the rule is made of floats, variables, ceilings and operations. -/
def IsCalculable (r : Rule) : Prop :=
  ∀ c ∈ r.calculations, c.IsGenuine ∧ c.HasFloats

instance (r : Rule) : Decidable r.IsCalculable :=
  decidable_of_iff (∀ c ∈ r.calculations, c.isPlain = true) <| by
    simp only [IsCalculable, Calculation.isPlain_iff]

namespace IsCalculable

theorem points (h : r.IsCalculable) : ∀ c ∈ r.pointsCalculation, c.IsGenuine ∧ c.HasFloats := by
  intro c hc
  exact h c (by simp [calculations, Option.mem_def.mp hc])

theorem short (h : r.IsCalculable) : ∀ c ∈ r.shortCalculation, c.IsGenuine ∧ c.HasFloats := by
  intro c hc
  exact h c (by simp [calculations, Option.mem_def.mp hc])

theorem entry (h : r.IsCalculable) {e : Entry} (he : e ∈ r.penalizations) :
    ∀ c ∈ e.calculation, c.IsGenuine ∧ c.HasFloats := by
  intro c hc
  apply h c
  apply List.mem_append_right
  exact List.mem_filterMap.mpr ⟨e, he, hc⟩

end IsCalculable

theorem describe_eq_ok : r.describe = .ok d ↔ ∃ penalizations points short,
    List.Forall₂ (fun e w => e.describe = .ok w) r.penalizations penalizations ∧
    describeCalculation r.pointsCalculation = .ok points ∧
    describeCalculation r.shortCalculation = .ok short ∧
    .map
      [(.text "name", .text r.name),
        (.text "hasDuration", .bool r.hasDuration),
        (.text "hasDistance", .bool r.hasDistance),
        (.text "hasDepth", .bool r.hasDepth),
        (.text "hasPoints", .bool r.hasPoints),
        (.text "primaryComponent", componentText r.primary),
        (.text "penalizationsTarget", componentText r.target),
        (.text "penalizations", .list penalizations),
        (.text "pointsCalculation", points),
        (.text "shortCalculation", short)] = d := by
  simp only [← mapM_eq_ok_iff]
  unfold describe
  cases r.penalizations.mapM (·.describe) with
  | error e => simp [bind, Except.bind]
  | ok penalizations =>
      cases describeCalculation r.pointsCalculation with
      | error e => simp [bind, Except.bind]
      | ok points =>
          cases describeCalculation r.shortCalculation <;>
            simp [bind, Except.bind, pure, Except.pure]

theorem exists_described_entries {entries : List Entry}
    (h : ∀ e ∈ entries, ∀ c ∈ e.calculation, c.IsGenuine) :
    ∃ described, List.Forall₂ (fun e w => e.describe = .ok w) entries described := by
  induction entries with
  | nil => exact ⟨[], .nil⟩
  | cons e entries ih =>
      rw [List.forall_mem_cons] at h
      obtain ⟨w, hw⟩ := Entry.exists_describe h.1
      obtain ⟨described, hrest⟩ := ih h.2
      exact ⟨w :: described, .cons hw hrest⟩

theorem exists_describe (h : r.IsCalculable) : ∃ d, r.describe = .ok d := by
  obtain ⟨penalizations, hpenalizations⟩ :=
    exists_described_entries fun e he c hc => (h.entry he c hc).1
  obtain ⟨points, hpoints⟩ :=
    Calculation.exists_describeCalculation fun c hc => (h.points c hc).1
  obtain ⟨short, hshort⟩ :=
    Calculation.exists_describeCalculation fun c hc => (h.short c hc).1
  exact ⟨_, describe_eq_ok.mpr ⟨penalizations, points, short, hpenalizations, hpoints, hshort, rfl⟩⟩

theorem forScoring_entries {entries entries' : List Entry} {described : List Datum}
    (h : ∀ e ∈ entries, ∀ c ∈ e.calculation, c.IsGenuine)
    (h' : ∀ e ∈ entries', ∀ c ∈ e.calculation, c.IsGenuine)
    (hd : List.Forall₂ (fun e w => e.describe = .ok w) entries described)
    (hd' : List.Forall₂ (fun e w => e.describe = .ok w) entries' described) :
    entries.map (·.forScoring) = entries'.map (·.forScoring) := by
  induction hd generalizing entries' with
  | nil =>
      cases hd'
      rfl
  | @cons e w entries described he hrest ih =>
      cases hd' with
      | @cons e' _ entries' _ he' hrest' =>
          rw [List.forall_mem_cons] at h h'
          rw [List.map_cons, List.map_cons, ih h.2 h'.2 hrest',
            Entry.forScoring_eq_of_describe h.1 h'.1 he he']

theorem forScoring_eq_of_describe (h : r.IsCalculable) (h' : r'.IsCalculable)
    (hd : r.describe = .ok d) (hd' : r'.describe = .ok d) : r.forScoring = r'.forScoring := by
  obtain ⟨ws, points, short, hentries, hpoints, hshort, rfl⟩ := describe_eq_ok.mp hd
  obtain ⟨ws', points', short', hentries', hpoints', hshort', hfields⟩ := describe_eq_ok.mp hd'
  simp only [Datum.map.injEq, List.cons.injEq, Prod.mk.injEq, Datum.text.injEq,
    Datum.bool.injEq, Datum.list.injEq, true_and, and_true] at hfields
  obtain ⟨hname, hduration, hdistance, hdepth, hawards, hprimary, -, rfl, rfl, rfl⟩ := hfields
  have hpenalizations := forScoring_entries (fun e he c hc => (h.entry he c hc).1)
    (fun e he c hc => (h'.entry he c hc).1) hentries hentries'
  have hpointsCalculation := Calculation.describeCalculation_injective
    (fun c hc => (h.points c hc).1) (fun c hc => (h'.points c hc).1) hpoints hpoints'
  have hshortCalculation := Calculation.describeCalculation_injective
    (fun c hc => (h.short c hc).1) (fun c hc => (h'.short c hc).1) hshort hshort'
  simp only [forScoring, Rule.mk.injEq, RuleFields.mk.injEq, and_true]
  exact ⟨hname.symm, (componentText_injective hprimary).symm, hawards.symm, hduration.symm,
    hdepth.symm, hdistance.symm, hpenalizations, hpointsCalculation, hshortCalculation⟩

theorem isRecomputedFrom_described {given : Option Calculation} {w : Datum}
    (h : ∀ c ∈ given, c.IsGenuine ∧ c.HasFloats) (hw : describeCalculation given = .ok w) :
    ∀ c ∈ given, c.IsRecomputedFrom w := by
  rintro c rfl
  obtain ⟨hgenuine, hfloats⟩ := h c rfl
  exact Calculation.isRecomputedFrom hgenuine hfloats hw

theorem isRecomputedFrom_describe (h : r.IsCalculable) (hd : r.describe = .ok d) :
    ∃ points short penalizations,
      d.get? "pointsCalculation" = some points ∧ d.get? "shortCalculation" = some short ∧
      d.get? "penalizations" = some (.list penalizations) ∧
      (∀ c ∈ r.pointsCalculation, c.IsRecomputedFrom points) ∧
      (∀ c ∈ r.shortCalculation, c.IsRecomputedFrom short) ∧
      List.Forall₂ (fun e w => ∃ calculation, w.get? "calculation" = some calculation ∧
        ∀ c ∈ e.calculation, c.IsRecomputedFrom calculation) r.penalizations penalizations := by
  obtain ⟨ws, points, short, hentries, hpoints, hshort, rfl⟩ := describe_eq_ok.mp hd
  refine ⟨points, short, ws, by simp [Datum.get?_cons], by simp [Datum.get?_cons],
    by simp [Datum.get?_cons], isRecomputedFrom_described h.points hpoints,
    isRecomputedFrom_described h.short hshort, ?_⟩
  have hplain : ∀ e ∈ r.penalizations, ∀ c ∈ e.calculation, c.IsGenuine ∧ c.HasFloats :=
    fun e he => h.entry he
  refine List.Forall₂.imp ?_ ((List.forall₂_and_left _ _).mpr ⟨hplain, hentries⟩)
  rintro e w ⟨hplain, hdescribed⟩
  obtain ⟨calculation, hcalculation, rfl⟩ := Entry.describe_eq_ok.mp hdescribed
  exact ⟨calculation, by simp [Datum.get?_cons],
    isRecomputedFrom_described hplain hcalculation⟩

end Rule

namespace Session

theorem points_forScoring (r : Rule) :
    points (.definition r.forScoring) = points (.definition r) :=
  rfl

theorem short_forScoring (r : Rule) :
    short (.definition r.forScoring) = short (.definition r) :=
  rfl

theorem penalize_forScoring (r : Rule) :
    penalize (.definition r.forScoring) = penalize (.definition r) := by
  funext id given realized
  unfold penalize resolve
  rw [pure_bind, pure_bind, r.penalize_forScoring]
  rfl

theorem reconcile_forScoring (r : Rule) :
    reconcile (.definition r.forScoring) = reconcile (.definition r) :=
  rfl

theorem submit_forScoring (r : Rule) :
    submit (.definition r.forScoring) = submit (.definition r) :=
  rfl

/-- Rules that are described alike award, deduct and record alike, and refuse alike; and what
they compute can be computed from the description. -/
theorem describe_determines {r r' : Rule} (h : r.IsCalculable) (h' : r'.IsCalculable)
    (hsame : r.describe = r'.describe) :
    (∀ realized, points (.definition r) realized = points (.definition r') realized) ∧
    (∀ announced realized, short (.definition r) announced realized =
      short (.definition r') announced realized) ∧
    (∀ id given realized, penalize (.definition r) id given realized =
      penalize (.definition r') id given realized) ∧
    (∀ realized penalizations card, reconcile (.definition r) realized penalizations card =
      reconcile (.definition r') realized penalizations card) ∧
    (∀ s, submit (.definition r) s = submit (.definition r') s) ∧
    ∃ d points short penalizations, r.describe = .ok d ∧
      d.get? "pointsCalculation" = some points ∧ d.get? "shortCalculation" = some short ∧
      d.get? "penalizations" = some (.list penalizations) ∧
      (∀ c ∈ r.pointsCalculation, c.IsRecomputedFrom points) ∧
      (∀ c ∈ r.shortCalculation, c.IsRecomputedFrom short) ∧
      List.Forall₂ (fun e w => ∃ calculation, w.get? "calculation" = some calculation ∧
        ∀ c ∈ e.calculation, c.IsRecomputedFrom calculation) r.penalizations penalizations := by
  obtain ⟨d, hd⟩ := Rule.exists_describe h
  have hscoring := Rule.forScoring_eq_of_describe h h' hd (hsame.symm.trans hd)
  obtain ⟨points, short, penalizations, hrecomputed⟩ := Rule.isRecomputedFrom_describe h hd
  refine ⟨fun realized => ?_, fun announced realized => ?_, fun id given realized => ?_,
    fun realized penalizations card => ?_, fun s => ?_,
    d, points, short, penalizations, hd, hrecomputed⟩
  · rw [← points_forScoring r, hscoring, points_forScoring]
  · rw [← short_forScoring r, hscoring, short_forScoring]
  · rw [← penalize_forScoring r, hscoring, penalize_forScoring]
  · rw [← reconcile_forScoring r, hscoring, reconcile_forScoring]
  · rw [← submit_forScoring r, hscoring, submit_forScoring]

def cwtWithTies : Rule :=
  { Federations.Cmas.cwt with comparator := Federations.Cmas.comparator .depth }

theorem describe_determines_cwt :
    cwtWithTies.comparator ≠ Federations.Cmas.cwt.comparator ∧
    cwtWithTies.IsCalculable ∧ Federations.Cmas.cwt.IsCalculable ∧
    cwtWithTies.describe = Federations.Cmas.cwt.describe ∧
    submit (.definition cwtWithTies) { card := .white } =
      submit (.definition Federations.Cmas.cwt) { card := .white } := by
  have h : cwtWithTies.IsCalculable := by decide
  have h' : Federations.Cmas.cwt.IsCalculable := by decide
  refine ⟨by decide, h, h', rfl, ?_⟩
  exact (describe_determines h h' rfl).2.2.2.2.1 _

end Session

end ApneaScoring
