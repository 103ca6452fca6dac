import ApneaScoring.Proofs.Calculation.Grammar

namespace ApneaScoring

namespace Datum

def usedKeys : Option Datum → List String
  | some (text "Constant") => ["operation", "constant"]
  | some (text "Variable") => ["operation", "variable"]
  | some (text "Ceiling") => ["operation", "argumentA"]
  | _ => ["operation", "argumentA", "argumentB"]

mutual

/-- The value without the keys that its operation does not use, and with floats for
integers, at every level. -/
def pruned : Datum → Datum
  | integer i => (Binary64.ofInt? i).elim (integer i) float
  | map entries => map (prunedEntries (usedKeys ((map entries).get? "operation")) entries)
  | d => d

def prunedEntries (used : List String) : List (Datum × Datum) → List (Datum × Datum)
  | [] => []
  | entry :: entries => prunedEntry used entry ++ prunedEntries used entries

def prunedEntry (used : List String) : Datum × Datum → List (Datum × Datum)
  | (text key, value) => if key ∈ used then [(text key, pruned value)] else []
  | _ => []

end

theorem pruned_integer {i : Int} {x : Binary64} (h : Binary64.ofInt? i = some x) :
    (integer i).pruned = float x := by
  rw [pruned, h, Option.elim_some]

/-- The same value but for the order of the entries of its maps. -/
inductive Agrees : Datum → Datum → Prop
  | refl (d : Datum) : Agrees d d
  | map {as bs : List (Datum × Datum)}
      (fields : ∀ key, Option.Rel Agrees ((map as).get? key) ((map bs).get? key)) :
      Agrees (map as) (map bs)

theorem get?_prunedEntries (used : List String) (entries : List (Datum × Datum))
    (key : String) : (map (prunedEntries used entries)).get? key =
      if key ∈ used then ((map entries).get? key).map pruned else none := by
  induction entries with
  | nil => simp [prunedEntries, get?]
  | cons entry entries ih =>
      obtain ⟨k, v⟩ := entry
      rw [get?_cons]
      cases k with
      | text name =>
          by_cases hname : name = key
          · subst hname
            by_cases hused : name ∈ used
            · simp [prunedEntries, prunedEntry, hused, get?_cons]
            · simp [prunedEntries, prunedEntry, hused, ih]
          · by_cases hused : name ∈ used
            · simp [prunedEntries, prunedEntry, hused, hname, get?_cons, ih]
            · simp [prunedEntries, prunedEntry, hused, hname, ih]
      | _ => simp [prunedEntries, prunedEntry, ih]

end Datum

namespace Calculation

def reread (c : Calculation) : Except WireError Calculation :=
  c.toWire >>= ofWire

variable {c a b : Calculation}

theorem toWire_ceiling {d : Datum} (h : a.toWire = .ok d) :
    (ceiling a).toWire = .ok (wireMap "Ceiling" [("argumentA", d)]) := by
  simp only [toWire, h]
  rfl

theorem toWire_binary {op : Operator} {d e : Datum} (ha : a.toWire = .ok d)
    (hb : b.toWire = .ok e) :
    (binary op a b).toWire = .ok (wireMap op.name [("argumentA", d), ("argumentB", e)]) := by
  simp only [toWire, ha, hb]
  rfl

theorem get?_operation (operation : String) (fields : List (String × Datum)) :
    (wireMap operation fields).get? "operation" = some (.text operation) := by
  simp [wireMap, Datum.get?_cons]

theorem exists_toWire (h : c.IsGenuine) : ∃ entries, c.toWire = .ok (.map entries) := by
  induction c with
  | constant value => exact ⟨_, rfl⟩
  | «variable» name => exact ⟨_, rfl⟩
  | ceiling argument ih =>
      obtain ⟨entries, hargument⟩ := ih (isGenuine_ceiling.mp h)
      exact ⟨_, toWire_ceiling hargument⟩
  | binary op left right ihLeft ihRight =>
      obtain ⟨entries, hleft⟩ := ihLeft (isGenuine_binary.mp h).1
      obtain ⟨others, hright⟩ := ihRight (isGenuine_binary.mp h).2
      exact ⟨_, toWire_binary hleft hright⟩
  | foreign value => exact absurd rfl (h _ (self_mem_parts _) value)

theorem reread_constant {value : Literal} :
    (constant value).reread = constantOfWire value.toDatum := by
  have hread : (constant value).reread =
      ofWire (wireMap "Constant" [("constant", value.toDatum)]) := rfl
  rw [hread, ofWire_of_constant (get?_operation _ _)]
  simp [wireMap, Datum.get?_cons]

theorem reread_variable {name : String} :
    (Calculation.variable name).reread = variableOfWire (.text name) := by
  have hread : (Calculation.variable name).reread =
      ofWire (wireMap "Variable" [("variable", .text name)]) := rfl
  rw [hread, ofWire_of_variable (get?_operation _ _)]
  simp [wireMap, Datum.get?_cons]

theorem reread_ceiling_eq_ok (h : a.IsGenuine) :
    (ceiling a).reread = .ok c ↔ ∃ argument, a.reread = .ok argument ∧ ceiling argument = c := by
  obtain ⟨entries, hwire⟩ := exists_toWire h
  have hread : a.reread = ofWire (.map entries) := by
    unfold reread
    rw [hwire]
    rfl
  unfold reread
  rw [toWire_ceiling hwire]
  change ofWire (wireMap "Ceiling" _) = .ok c ↔ _
  rw [ofWire_eq_ok_of_ceiling (get?_operation _ _)]
  simp [operand, wireMap, Datum.get?_cons, ← hread, reread]

theorem reread_binary_eq_ok {op : Operator} (ha : a.IsGenuine) (hb : b.IsGenuine) :
    (binary op a b).reread = .ok c ↔ ∃ left right, a.reread = .ok left ∧ b.reread = .ok right ∧
      binary op left right = c := by
  obtain ⟨entries, hleft⟩ := exists_toWire ha
  obtain ⟨others, hright⟩ := exists_toWire hb
  unfold reread
  rw [toWire_binary hleft hright, hleft, hright]
  change ofWire (wireMap op.name _) = .ok c ↔ _
  rw [ofWire_eq_ok_of_binary (get?_operation _ _)]
  simp [operand, wireMap, Datum.get?_cons, bind, Except.bind]

theorem reread_eq_ok (h : c.IsGenuine) {c' : Calculation} :
    c.reread = .ok c' ↔ c.toFloats = c' ∧ c.IsNamed ∧ c.IsInRange := by
  induction c generalizing c' with
  | constant value =>
      rw [reread_constant]
      have hvalue := Literal.ofDatum?_toDatum value
      cases hnumber : value.toNumber with
      | ok x =>
          rw [constantOfWire_of_ok hvalue hnumber, toFloats_constant hnumber]
          simp [IsNamed, IsInRange, hnumber]
      | error e =>
          rw [constantOfWire_of_error hvalue hnumber]
          simp [IsInRange, hnumber]
  | «variable» name =>
      rw [reread_variable]
      by_cases hname : name = ""
      · subst hname
        simp [variableOfWire, IsNamed]
      · rw [variableOfWire_text hname]
        simp [toFloats, IsNamed, IsInRange, hname]
  | ceiling argument ih =>
      rw [isGenuine_ceiling] at h
      rw [reread_ceiling_eq_ok h, isNamed_ceiling, isInRange_ceiling]
      simp only [ih h, toFloats]
      constructor
      · rintro ⟨argument', ⟨rfl, hnamed, hrange⟩, rfl⟩
        exact ⟨rfl, hnamed, hrange⟩
      · rintro ⟨rfl, hnamed, hrange⟩
        exact ⟨_, ⟨rfl, hnamed, hrange⟩, rfl⟩
  | binary op left right ihLeft ihRight =>
      rw [isGenuine_binary] at h
      rw [reread_binary_eq_ok h.1 h.2, isNamed_binary, isInRange_binary]
      simp only [ihLeft h.1, ihRight h.2, toFloats]
      constructor
      · rintro ⟨left', right', ⟨rfl, hnamed, hrange⟩, ⟨rfl, hnamed', hrange'⟩, rfl⟩
        exact ⟨rfl, ⟨hnamed, hnamed'⟩, hrange, hrange'⟩
      · rintro ⟨rfl, ⟨hnamed, hnamed'⟩, hrange, hrange'⟩
        exact ⟨_, _, ⟨rfl, hnamed, hrange⟩, ⟨rfl, hnamed', hrange'⟩, rfl⟩
  | foreign value => exact absurd rfl (h _ (self_mem_parts _) value)

section

variable {d : Datum}

theorem ReadsAs.forall_parts {P : Calculation → Prop} (h : ReadsAs d c)
    (hconstant : ∀ x, P (constant (.float x)))
    (hvariable : ∀ name, name ≠ "" → P (.variable name))
    (hceiling : ∀ argument, P (.ceiling argument))
    (hbinary : ∀ op left right, P (.binary op left right)) : ∀ p ∈ c.parts, P p := by
  induction h with
  | float operation value => simpa using hconstant _
  | integer operation value near => simpa using hconstant _
  | «variable» operation value named => simpa using hvariable _ named
  | ceiling operation argument reads ih =>
      rw [forall_parts_ceiling]
      exact ⟨hceiling _, ih⟩
  | binary op operation first readsFirst second readsSecond ihFirst ihSecond =>
      rw [forall_parts_binary]
      exact ⟨hbinary _ _ _, ihFirst, ihSecond⟩

theorem ReadsAs.isGenuine (h : ReadsAs d c) : c.IsGenuine := by
  unfold IsGenuine
  refine h.forall_parts ?_ ?_ ?_ ?_ <;> simp

theorem ReadsAs.hasFloats (h : ReadsAs d c) : c.HasFloats := by
  unfold HasFloats
  refine h.forall_parts ?_ ?_ ?_ ?_ <;> simp

theorem ReadsAs.isNamed (h : ReadsAs d c) : c.IsNamed := by
  unfold IsNamed
  refine h.forall_parts ?_ ?_ ?_ ?_ <;> simp

theorem ReadsAs.reread (h : ReadsAs d c) : c.reread = .ok c :=
  (reread_eq_ok h.isGenuine).mpr
    ⟨toFloats_eq_self h.hasFloats, h.isNamed, h.hasFloats.isInRange⟩

theorem get?_wireMap (operation : String) (fields : List (String × Datum)) (key : String) :
    (wireMap operation fields).get? key =
      if "operation" = key then some (.text operation) else fields.lookup key := by
  have hfields : (Datum.map (fields.map fun field => (.text field.1, field.2))).get? key =
      fields.lookup key := by
    induction fields with
    | nil => rfl
    | cons field fields ih =>
        rw [List.map_cons, Datum.get?_cons, List.lookup_cons, ih]
        by_cases hkey : field.1 = key
        · simp [hkey]
        · have hne : (key == field.1) = false := by simp [Ne.symm hkey]
          simp [hkey, hne]
  simp [wireMap, Datum.get?_cons, hfields]

theorem agrees_pruned {operation : String} {fields : List (String × Datum)}
    (h : d.get? "operation" = some (.text operation))
    (hused : Datum.usedKeys (some (.text operation)) = "operation" :: fields.map Prod.fst)
    (hfields : ∀ field ∈ fields,
      ∃ given, d.get? field.1 = some given ∧ field.2.Agrees given.pruned) :
    (wireMap operation fields).Agrees d.pruned := by
  obtain ⟨entries, rfl⟩ := Datum.exists_entries_of_get? h
  rw [Datum.pruned, h, hused]
  apply Datum.Agrees.map
  intro key
  change Option.Rel _ ((wireMap operation fields).get? key) _
  rw [get?_wireMap, Datum.get?_prunedEntries]
  by_cases hkey : "operation" = key
  · subst hkey
    simp only [h, Option.map_some, List.mem_cons, true_or, if_true, Datum.pruned]
    exact .some (.refl _)
  · rw [if_neg hkey]
    cases hvalue : fields.lookup key with
    | none =>
        have hunused : key ∉ fields.map Prod.fst := by
          intro hmem
          obtain ⟨field, hfield, rfl⟩ := List.mem_map.mp hmem
          have hne := List.lookup_eq_none_iff.mp hvalue field hfield
          simp at hne
        rw [if_neg (by simp [Ne.symm hkey, hunused])]
        exact .none
    | some value =>
        have hmem : (key, value) ∈ fields := by
          obtain ⟨before, after, rfl, -⟩ := List.lookup_eq_some_iff.mp hvalue
          simp
        obtain ⟨given, hgiven, hagrees⟩ := hfields _ hmem
        rw [if_pos (List.mem_cons_of_mem _ (List.mem_map_of_mem hmem)), hgiven]
        exact .some hagrees

theorem ReadsAs.agrees (h : ReadsAs d c) :
    ∃ written, c.toWire = .ok written ∧ written.Agrees d.pruned := by
  induction h with
  | float operation value =>
      refine ⟨_, rfl, agrees_pruned operation rfl ?_⟩
      simpa using ⟨_, value, .refl _⟩
  | integer operation value near =>
      refine ⟨_, rfl, agrees_pruned operation rfl ?_⟩
      have hpruned := Datum.pruned_integer near
      simpa using ⟨_, value, hpruned ▸ .refl _⟩
  | «variable» operation value named =>
      refine ⟨_, rfl, agrees_pruned operation rfl ?_⟩
      simpa using ⟨_, value, .refl _⟩
  | ceiling operation argument reads ih =>
      obtain ⟨written, hwritten, hagrees⟩ := ih
      refine ⟨_, toWire_ceiling hwritten, agrees_pruned operation rfl ?_⟩
      simpa using ⟨_, argument, hagrees⟩
  | binary op operation first readsFirst second readsSecond ihFirst ihSecond =>
      obtain ⟨left, hleft, hleftAgrees⟩ := ihFirst
      obtain ⟨right, hright, hrightAgrees⟩ := ihSecond
      refine ⟨_, toWire_binary hleft hright, agrees_pruned operation ?_ ?_⟩
      · cases op <;> rfl
      · simpa using ⟨⟨_, first, hleftAgrees⟩, _, second, hrightAgrees⟩

end

/-- A tree is read as it was written, its constants as floats, just if no variable in it goes
without a name. A value that is read is written as what reading saw of it. -/
theorem reread_inverse :
    (∀ c : Calculation, c.IsGenuine → c.HasFloats → (c.reread = .ok c ↔ c.IsNamed)) ∧
    (∀ c : Calculation, c.IsGenuine → c.IsInRange →
      ((∃ again, c.reread = .ok again) ↔ c.IsNamed) ∧
      ∀ again, c.reread = .ok again → ∀ vars, again.evaluate vars = c.evaluate vars) ∧
    ∀ d c, ofWire d = .ok c → ∃ written, c.toWire = .ok written ∧ ofWire written = .ok c ∧
      written.Agrees d.pruned := by
  refine ⟨fun c hgenuine hfloats => ?_, fun c hgenuine hrange => ?_, fun d c h => ?_⟩
  · rw [reread_eq_ok hgenuine, toFloats_eq_self hfloats]
    simp [hfloats.isInRange]
  · simp only [reread_eq_ok hgenuine, hrange, and_true]
    constructor
    · simp
    · rintro again ⟨rfl, -⟩ vars
      exact evaluate_toFloats vars c
  · have hreads := readsAs_of_ofWire h
    obtain ⟨written, hwritten, hagrees⟩ := hreads.agrees
    have hread := hreads.reread
    unfold reread at hread
    rw [hwritten] at hread
    exact ⟨written, hwritten, hread, hagrees⟩

/-- Five, as an integer and in a map with a key that a constant does not use. -/
theorem reread_five :
    (constant (.integer 5)).IsInRange ∧
    (∀ again, (constant (.integer 5)).reread = .ok again →
      ∀ vars, again.evaluate vars = (constant (.integer 5)).evaluate vars) ∧
    ∃ written, (constant (.float (.ofDecimal false 5 0))).toWire = .ok written ∧
      ofWire written = .ok (constant (.float (.ofDecimal false 5 0))) ∧
      written.Agrees (Datum.map [(.text "argumentA", .null), (.text "constant", .integer 5),
        (.text "operation", .text "Constant")]).pruned := by
  have hnear : Binary64.ofInt? 5 = some (.ofDecimal false 5 0) := by decide +kernel
  have hgenuine : (constant (.integer 5)).IsGenuine := by simp [IsGenuine]
  have hrange : (constant (.integer 5)).IsInRange := by
    simp [IsInRange, Literal.toNumber_near hnear]
  have hread : ReadsAs (.map [(.text "argumentA", .null), (.text "constant", .integer 5),
      (.text "operation", .text "Constant")]) (constant (.float (.ofDecimal false 5 0))) := by
    apply ReadsAs.integer _ _ hnear
    · simp [Datum.get?_cons]
    · simp [Datum.get?_cons]
  exact ⟨hrange, (reread_inverse.2.1 _ hgenuine hrange).2, reread_inverse.2.2 _ _ hread.ofWire⟩

end Calculation

end ApneaScoring
