import ApneaScoring.Proofs.HostRecords
import ApneaScoring.Reconciliation

namespace ApneaScoring

theorem bind_eq_error {α β ε : Type} {result : Except ε α} {next : α → Except ε β} {e : ε} :
    result >>= next = .error e ↔
      result = .error e ∨ ∃ a, result = .ok a ∧ next a = .error e := by
  cases result <;> simp [bind, Except.bind]

namespace Datum

/-- Numbers and texts of numbers, with the float that they come to. -/
inductive Denotes : Datum → Binary64 → Prop
  | integer {i : Int} {x : Binary64} (h : Binary64.ofInt? i = some x) : Denotes (.integer i) x
  | float (x : Binary64) : Denotes (.float x) x
  | text {s : String} {x : Binary64} (h : Binary64.ofText? s = some x) : Denotes (.text s) x

/-- An integer to which no finite float is nearest. -/
def IsTooLarge (d : Datum) : Prop :=
  ∃ i, d = .integer i ∧ Binary64.ofInt? i = none

variable {d : Datum} {x y : Binary64} {e : NumberError}

theorem Denotes.unique (hx : d.Denotes x) (hy : d.Denotes y) : x = y := by
  cases hx with
  | integer h =>
      cases hy with
      | integer h' => exact Option.some.inj (h.symm.trans h')
  | float => cases hy; rfl
  | text h =>
      cases hy with
      | text h' => exact Option.some.inj (h.symm.trans h')

theorem Denotes.not_isTooLarge (h : d.Denotes x) : ¬ d.IsTooLarge := by
  rintro ⟨i, rfl, hlarge⟩
  cases h with
  | integer hnear =>
      rw [hlarge] at hnear
      cases hnear

theorem number?_of_toNumber (hbool : ∀ b, d ≠ bool b) (h : d.toNumber = .ok x) :
    d.number? = .ok (some x) := by
  rw [number?, h]
  exact hbool

theorem number?_of_tooLarge (hbool : ∀ b, d ≠ bool b) (h : d.toNumber = .error .tooLarge) :
    d.number? = .error .tooLarge := by
  rw [number?, h]
  exact hbool

theorem toNumber_integer (i : Int) :
    (integer i).toNumber = (Binary64.ofInt? i).elim (.error .tooLarge) .ok := by
  rw [toNumber, Binary64.ofInteger_eq]

theorem number?_cases (d : Datum) :
    (∃ x, d.Denotes x ∧ d.number? = .ok (some x)) ∨
    (d.IsTooLarge ∧ d.number? = .error .tooLarge) ∨
    (¬ d.IsTooLarge ∧ (∀ x, ¬ d.Denotes x) ∧ d.number? = .ok none) := by
  have hother : (∀ i, d ≠ .integer i) → ¬ d.IsTooLarge := by
    rintro h ⟨i, rfl, -⟩
    exact h i rfl
  cases d with
  | integer i =>
      have hread := toNumber_integer i
      cases hi : Binary64.ofInt? i with
      | some x =>
          rw [hi, Option.elim_some] at hread
          exact .inl ⟨x, .integer hi, number?_of_toNumber (by simp) hread⟩
      | none =>
          rw [hi, Option.elim_none] at hread
          exact .inr (.inl ⟨⟨i, rfl, hi⟩, number?_of_tooLarge (by simp) hread⟩)
  | float x => exact .inl ⟨x, .float x, rfl⟩
  | text s =>
      cases hs : Binary64.ofText? s with
      | some x => exact .inl ⟨x, .text hs, by simp [number?, toNumber, hs]⟩
      | none =>
          refine .inr (.inr ⟨hother (by simp), ?_, by simp [number?, toNumber, hs]⟩)
          rintro x (_ | _ | h)
          rw [hs] at h
          cases h
  | null | bool _ | other _ | list _ | map _ =>
      refine .inr (.inr ⟨hother (by simp), ?_, rfl⟩)
      intro x h
      cases h

theorem number?_eq_some_iff : d.number? = .ok (some x) ↔ d.Denotes x := by
  rcases d.number?_cases with ⟨y, hy, hread⟩ | ⟨hlarge, hread⟩ | ⟨-, hnone, hread⟩
  · rw [hread]
    constructor
    · intro h
      obtain rfl := Option.some.inj (Except.ok.inj h)
      exact hy
    · intro hx
      rw [hx.unique hy]
  · rw [hread]
    exact iff_of_false nofun fun hx => hx.not_isTooLarge hlarge
  · rw [hread]
    exact iff_of_false nofun (hnone x)

theorem number?_eq_error_iff : d.number? = .error e ↔ e = .tooLarge ∧ d.IsTooLarge := by
  rcases d.number?_cases with ⟨x, hx, hread⟩ | ⟨hlarge, hread⟩ | ⟨hsmall, -, hread⟩
  · rw [hread]
    exact iff_of_false nofun fun h => hx.not_isTooLarge h.2
  · rw [hread, Except.error.injEq, eq_comm]
    exact (and_iff_left hlarge).symm
  · rw [hread]
    exact iff_of_false nofun fun h => hsmall h.2

section

variable {keep : Binary64 → Bool}

theorem number?_filter_eq_some_iff :
    d.number?.map (·.filter keep) = .ok (some x) ↔ d.Denotes x ∧ keep x = true := by
  rw [← number?_eq_some_iff]
  cases d.number? with
  | error e => simp [Except.map]
  | ok y => simp [Except.map, Option.filter_eq_some_iff]

theorem number?_filter_eq_error_iff :
    d.number?.map (·.filter keep) = .error e ↔ e = .tooLarge ∧ d.IsTooLarge := by
  rw [← number?_eq_error_iff]
  cases d.number? <;> simp [Except.map]

end

theorem measure?_eq_some_iff : d.measure? = .ok (some x) ↔ d.Denotes x ∧ x ≠ .nan := by
  have hkept : (!x.isNaN) = true ↔ x ≠ .nan := by cases x <;> simp [Binary64.isNaN]
  rw [← hkept]
  exact number?_filter_eq_some_iff

theorem measure?_eq_error_iff : d.measure? = .error e ↔ e = .tooLarge ∧ d.IsTooLarge :=
  number?_filter_eq_error_iff

theorem positive?_eq_some_iff : d.positive? = .ok (some x) ↔
    d.Denotes x ∧ x.isFinite = true ∧ Binary64.zero.lt x = true := by
  rw [← Bool.and_eq_true]
  exact number?_filter_eq_some_iff

theorem positive?_eq_error_iff : d.positive? = .error e ↔ e = .tooLarge ∧ d.IsTooLarge :=
  number?_filter_eq_error_iff

theorem isPositive_eq_true_iff : d.isPositive = .ok true ↔
    ∃ x, d.measure? = .ok (some x) ∧ x.isFinite = true ∧ Binary64.zero.lt x = true := by
  have hsome : d.isPositive = .ok true ↔ ∃ x, d.positive? = .ok (some x) := by
    unfold isPositive
    cases d.positive? with
    | error e => simp [Except.map]
    | ok y => simp [Except.map, Option.isSome_iff_exists]
  rw [hsome]
  apply exists_congr
  intro x
  rw [positive?_eq_some_iff, measure?_eq_some_iff, and_assoc]
  constructor
  · rintro ⟨hx, hfinite, hpositive⟩
    exact ⟨hx, Binary64.ne_nan_of_isFinite hfinite, hfinite, hpositive⟩
  · rintro ⟨hx, -, hkept⟩
    exact ⟨hx, hkept⟩

theorem isPositive_eq_error_iff : d.isPositive = .error e ↔ e = .tooLarge ∧ d.IsTooLarge := by
  rw [← positive?_eq_error_iff]
  unfold isPositive
  cases d.positive? <;> simp [Except.map]

theorem exists_of_getD {P : Datum → Prop} (hnull : ¬ P .null) {value : Option Datum} :
    P (value.getD .null) ↔ ∃ d, value = some d ∧ P d := by
  cases value <;> simp [hnull]

theorem exists_ok_iff {α : Type} {result : Except NumberError α}
    (h : ∀ e, result = .error e ↔ e = .tooLarge ∧ d.IsTooLarge) :
    (∃ a, result = .ok a) ↔ ¬ d.IsTooLarge := by
  cases result with
  | ok a =>
      refine iff_of_true ⟨a, rfl⟩ fun hlarge => ?_
      cases (h .tooLarge).mpr ⟨rfl, hlarge⟩
  | error e => exact iff_of_false nofun (not_not.mpr ((h e).mp rfl).2)

end Datum

theorem Component.key_injective {c c' : Component} (h : c.key = c'.key) : c = c' := by
  cases c <;> cases c' <;> first | rfl | exact absurd h (by decide)

namespace Performance

variable {p : Performance} {record : Datum}

theorem get?_entries (p : Performance) (c : Component) (cs : List Component) :
    (Datum.map ((cs.filterMap fun c => (p.get c).map (c.key, ·)).map
      fun entry => (.text entry.1, .float entry.2))).get? c.key =
        if c ∈ cs then (p.get c).map .float else none := by
  induction cs with
  | nil => rfl
  | cons c' cs ih =>
      cases hc' : p.get c' with
      | none =>
          rw [List.filterMap_cons_none (by rw [hc', Option.map_none]), ih]
          by_cases hc : c = c'
          · rw [hc, hc']
            simp
          · simp [hc]
      | some x =>
          rw [List.filterMap_cons_some (by rw [hc', Option.map_some]), List.map_cons,
            Datum.get?_cons, ih]
          by_cases hc : c = c'
          · rw [hc, hc']
            simp
          · have hkey : c'.key ≠ c.key := fun h => hc (Component.key_injective h).symm
            simp [hc, hkey]

theorem get?_toRecord (p : Performance) (c : Component) :
    p.toRecord.get? c.key = (p.get c).map .float := by
  unfold toRecord entries
  rw [get?_entries, if_pos (Component.mem_all c)]

theorem exists_ofRecord_iff : (∃ p, ofRecord record = .ok p) ↔
    ∀ c : Component, ¬ ((record.get? c.key).getD .null).IsTooLarge := by
  constructor
  · rintro ⟨p, hp⟩ c
    exact (Datum.exists_ok_iff fun _ => Datum.measure?_eq_error_iff).mp
      ⟨_, ofRecord_eq_ok.mp hp c⟩
  · intro h
    have hread : ∀ c : Component, ∃ value, ((record.get? c.key).getD .null).measure? = .ok value :=
      fun c => (Datum.exists_ok_iff fun _ => Datum.measure?_eq_error_iff).mpr (h c)
    choose value hvalue using hread
    refine ⟨.ofComponents value, ofRecord_eq_ok.mpr fun c => ?_⟩
    rw [get_ofComponents, hvalue]

theorem ofRecord_eq_error {e : NumberError} (h : ofRecord record = .error e) : e = .tooLarge := by
  simp only [ofRecord, bind_eq_error] at h
  rcases h with h | ⟨_, _, h | ⟨_, _, h | ⟨_, _, h | ⟨_, _, h⟩⟩⟩⟩
  · exact (Datum.measure?_eq_error_iff.mp h).1
  · exact (Datum.measure?_eq_error_iff.mp h).1
  · exact (Datum.measure?_eq_error_iff.mp h).1
  · exact (Datum.measure?_eq_error_iff.mp h).1
  · cases h

theorem get_eq_some_iff (h : ofRecord record = .ok p) (c : Component) (x : Binary64) :
    p.get c = some x ↔ x ≠ .nan ∧ ∃ d, record.get? c.key = some d ∧ d.Denotes x := by
  have hread := ofRecord_eq_ok.mp h c
  have hnull : ¬ Datum.null.Denotes x := nofun
  rw [← Datum.exists_of_getD (P := (·.Denotes x)) hnull, and_comm, ← Datum.measure?_eq_some_iff,
    hread, Except.ok.injEq]

theorem ofRecord_toRecord (h : ∀ c, p.get c ≠ some .nan) : ofRecord p.toRecord = .ok p := by
  refine ofRecord_eq_ok.mpr fun c => ?_
  rw [get?_toRecord]
  cases hc : p.get c with
  | none => rfl
  | some x =>
      apply Datum.measure?_float
      rintro rfl
      exact h c hc

/-- Reading comes to an outcome for every record and every value but an integer past the
range; what it comes to is told by the numbers that the values denote. -/
theorem ofRecord_outcome (record : Datum) :
    ((∃ p, ofRecord record = .ok p) ↔
      ∀ c : Component, ∀ d, record.get? c.key = some d → ¬ d.IsTooLarge) ∧
    (∀ e, ofRecord record = .error e → e = .tooLarge) ∧
    (∀ p, ofRecord record = .ok p →
      (∀ c, p.get c ≠ some .nan) ∧
      (∀ c x, p.get c = some x ↔
        x ≠ .nan ∧ ∃ d, record.get? c.key = some d ∧ d.Denotes x) ∧
      ofRecord p.toRecord = .ok p) ∧
    ∀ d : Datum,
      ((∃ x, d.measure? = .ok x) ↔ ¬ d.IsTooLarge) ∧
      ((∃ b, d.isPositive = .ok b) ↔ ¬ d.IsTooLarge) ∧
      (∀ e, d.measure? = .error e ∨ d.isPositive = .error e → e = .tooLarge) ∧
      (d.isPositive = .ok true ↔
        ∃ x, d.measure? = .ok (some x) ∧ x.isFinite = true ∧ Binary64.zero.lt x = true) := by
  refine ⟨?_, fun e => ofRecord_eq_error, ?_, ?_⟩
  · have hnull : ¬ Datum.null.IsTooLarge := by simp [Datum.IsTooLarge]
    simp only [exists_ofRecord_iff, Datum.exists_of_getD hnull, not_exists, not_and]
  · intro p hp
    have hnan : ∀ c, p.get c ≠ some .nan := isRead_iff.mp ⟨record, hp⟩
    exact ⟨hnan, get_eq_some_iff hp, ofRecord_toRecord hnan⟩
  · intro d
    refine ⟨Datum.exists_ok_iff fun _ => Datum.measure?_eq_error_iff,
      Datum.exists_ok_iff fun _ => Datum.isPositive_eq_error_iff, ?_,
      Datum.isPositive_eq_true_iff⟩
    rintro e (h | h)
    · exact (Datum.measure?_eq_error_iff.mp h).1
    · exact (Datum.isPositive_eq_error_iff.mp h).1

/-- An integer of 310 digits is neither absent nor a number, wherever it is read. -/
theorem pastRange_fails :
    ofRecord (.map [(.text "duration", .integer (10 ^ 309))]) = .error .tooLarge ∧
    (Datum.integer (10 ^ 309)).measure? = .error .tooLarge ∧
    (Datum.integer (10 ^ 309)).isPositive = .error .tooLarge := by
  decide +kernel

end Performance

end ApneaScoring
