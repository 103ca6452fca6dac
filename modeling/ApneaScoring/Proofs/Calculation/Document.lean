import ApneaScoring.Calculation.Document
import ApneaScoring.Proofs.Calculation.RoundTrip
import ApneaScoring.Proofs.Yaml.Document

/-! The document of a calculation is read as the calculation again, with one exception: under 39
operations no width is left to the lines of a name, and one that has to be escaped is read with a
backslash and a blank more wherever a blank stands behind an escape. -/

namespace ApneaScoring

namespace Calculation

open Yaml

/-- What is read of the document of a calculation, the name of each variable being that which is
read under so many operations. -/
def respelled (depth : Nat) : Calculation → Calculation
  | constant value => constant value
  | .variable name =>
      .variable (String.ofList (textFor (2 * depth + 2) name.toList))
  | ceiling argument => ceiling (argument.respelled (depth + 1))
  | binary op a b => binary op (a.respelled (depth + 1)) (b.respelled (depth + 1))
  | foreign value => foreign value

def namesAt (depth : Nat) : Calculation → List (Nat × String)
  | constant _ => []
  | .variable name => [(depth, name)]
  | ceiling argument => argument.namesAt (depth + 1)
  | binary _ a b => a.namesAt (depth + 1) ++ b.namesAt (depth + 1)
  | foreign _ => []

variable {c : Calculation} {depth : Nat}

theorem respelled_eq_self_iff : c.respelled depth = c ↔ ∀ name ∈ c.namesAt depth,
    name.1 < 39 ∨ Yaml.isPlain name.2.toList = true ∨ fitsSingle name.2.toList = true ∨
      hasEscapedBlank true name.2.toList = false := by
  induction c generalizing depth with
  | constant value => simp [respelled, namesAt]
  | «variable» name =>
      have hdepth : 2 * depth + 2 < width ↔ depth < 39 := by
        unfold width
        omega
      have htext : String.ofList (textFor (2 * depth + 2) name.toList) = name ↔
          textFor (2 * depth + 2) name.toList = name.toList := by
        rw [← String.toList_inj, String.toList_ofList]
      simp [respelled, namesAt, htext, textFor_eq_self_iff, hdepth]
  | ceiling argument ih => simp [respelled, namesAt, ih]
  | binary op a b iha ihb =>
      simp only [respelled, namesAt, binary.injEq, true_and, iha, ihb, List.forall_mem_append]
  | foreign value => simp [respelled, namesAt]

theorem forall_parts_respelled {P : Calculation → Prop}
    (hP : ∀ p depth, P p → P (p.respelled depth)) (h : ∀ p ∈ c.parts, P p) (depth : Nat) :
    ∀ p ∈ (c.respelled depth).parts, P p := by
  have hself := hP c depth (h c (self_mem_parts c))
  induction c generalizing depth with
  | constant value => exact h
  | «variable» name => exact forall_parts_variable.mpr hself
  | ceiling argument ih =>
      rw [forall_parts_ceiling] at h
      have hargument := h.2 argument (self_mem_parts argument)
      exact forall_parts_ceiling.mpr ⟨hself, ih h.2 _ (hP _ _ hargument)⟩
  | binary op a b iha ihb =>
      rw [forall_parts_binary] at h
      have ha := h.2.1 a (self_mem_parts a)
      have hb := h.2.2 b (self_mem_parts b)
      exact forall_parts_binary.mpr ⟨hself, iha h.2.1 _ (hP _ _ ha), ihb h.2.2 _ (hP _ _ hb)⟩
  | foreign value => exact h

theorem isGenuine_respelled (h : c.IsGenuine) (depth : Nat) : (c.respelled depth).IsGenuine := by
  refine forall_parts_respelled (fun p depth hp value => ?_) h depth
  cases p <;> simp_all [respelled]

theorem hasFloats_respelled (h : c.HasFloats) (depth : Nat) : (c.respelled depth).HasFloats := by
  refine forall_parts_respelled (fun p depth hp value => ?_) h depth
  cases p with
  | constant given => exact hp value
  | _ => simp [respelled]

theorem isNamed_respelled (h : c.IsNamed) (depth : Nat) : (c.respelled depth).IsNamed := by
  refine forall_parts_respelled (fun p depth hp name hname => ?_) h depth
  cases p with
  | «variable» given =>
      have hgiven : given.toList ≠ [] := by simpa using hp given rfl
      have htext : textFor (2 * depth + 2) given.toList ≠ [] := textFor_ne_nil hgiven
      obtain rfl := Calculation.variable.inj hname
      simpa using htext
  | _ => cases hname

/-- Fields in which a calculation is written, at a column that its depth tells, and read. -/
structure IsSpelled (c : Calculation) (depth : Nat) (fields : List Field) : Prop where
  renders : ∀ f ∈ fields, f.Renders (2 * depth)
  ne_nil : fields ≠ []
  nodup : (fields.map Field.key).Nodup
  written : c.toWire = .ok (.map (fields.map Field.entry))
  read : (c.respelled depth).toWire = .ok (.map (fields.map Field.entryRead))

theorem isSpelled_cons (operation : String) (fields : List Field)
    (hplain : Yaml.isPlain operation.toList = true) (hrenders : ∀ f ∈ fields, f.Renders (2 * depth))
    (hnodup : ("operation" :: fields.map Field.key).Nodup)
    (hwritten : c.toWire = .ok (wireMap operation (fields.map fun f => (f.key, f.value))))
    (hread : (c.respelled depth).toWire =
      .ok (wireMap operation (fields.map fun f => (f.key, f.read)))) :
    c.IsSpelled depth (Field.ofText (2 * depth) "operation" operation.toList :: fields) where
  renders := by
    rw [List.forall_mem_cons]
    exact ⟨renders_ofText (by decide) _ _, hrenders⟩
  ne_nil := List.cons_ne_nil _ _
  nodup := hnodup
  written := by
    rw [hwritten, wireMap]
    simp [Field.entry, Field.ofText, Function.comp_def]
  read := by
    have htext : textFor (2 * depth + 2) operation.toList = operation.toList := by
      simp [textFor, hplain]
    rw [hread, wireMap]
    simp [Field.entryRead, Field.ofText, Function.comp_def, htext]

theorem IsSpelled.renders_argument {fields : List Field} (h : c.IsSpelled (depth + 1) fields)
    {key : String} (hkey : IsKey key) : (Field.ofFields key fields).Renders (2 * depth) :=
  renders_ofFields hkey h.renders h.ne_nil h.nodup

theorem exists_isSpelled (hgenuine : c.IsGenuine) (hfloats : c.HasFloats) (depth : Nat) :
    ∃ fields, c.IsSpelled depth fields := by
  induction c generalizing depth with
  | constant value =>
      obtain ⟨x, rfl⟩ := hfloats _ (self_mem_parts _) value rfl
      have hkeys : ["operation", "constant"].Nodup := by decide
      have hvalue : (Field.ofFloat "constant" x).Renders (2 * depth) :=
        renders_ofFloat (by decide) _ x
      exact ⟨_, isSpelled_cons "Constant" [.ofFloat "constant" x] (by decide)
        (by simpa using hvalue) hkeys rfl rfl⟩
  | «variable» name =>
      have hkeys : ["operation", "variable"].Nodup := by decide
      have hvalue : (Field.ofText (2 * depth) "variable" name.toList).Renders (2 * depth) :=
        renders_ofText (by decide) _ _
      refine ⟨_, isSpelled_cons "Variable" [.ofText (2 * depth) "variable" name.toList] (by decide)
        (by simpa using hvalue) hkeys ?_ rfl⟩
      simp [toWire, Field.ofText]
  | ceiling argument ih =>
      rw [isGenuine_ceiling] at hgenuine
      rw [hasFloats_ceiling] at hfloats
      obtain ⟨fields, hfields⟩ := ih hgenuine hfloats (depth + 1)
      have hkeys : ["operation", "argumentA"].Nodup := by decide
      have hargument : (Field.ofFields "argumentA" fields).Renders (2 * depth) :=
        hfields.renders_argument (by decide)
      exact ⟨_, isSpelled_cons "Ceiling" [.ofFields "argumentA" fields] (by decide)
        (by simpa using hargument) hkeys (toWire_ceiling hfields.written)
        (toWire_ceiling hfields.read)⟩
  | binary op a b iha ihb =>
      rw [isGenuine_binary] at hgenuine
      rw [hasFloats_binary] at hfloats
      obtain ⟨fields, hfields⟩ := iha hgenuine.1 hfloats.1 (depth + 1)
      obtain ⟨others, hothers⟩ := ihb hgenuine.2 hfloats.2 (depth + 1)
      have hplain : Yaml.isPlain op.name.toList = true := by cases op <;> decide
      have hkeys : ["operation", "argumentA", "argumentB"].Nodup := by decide
      have hfirst : (Field.ofFields "argumentA" fields).Renders (2 * depth) :=
        hfields.renders_argument (by decide)
      have hsecond : (Field.ofFields "argumentB" others).Renders (2 * depth) :=
        hothers.renders_argument (by decide)
      exact ⟨_, isSpelled_cons op.name [.ofFields "argumentA" fields, .ofFields "argumentB" others]
        hplain (by simpa using ⟨hfirst, hsecond⟩) hkeys
        (toWire_binary hfields.written hothers.written) (toWire_binary hfields.read hothers.read)⟩
  | foreign value => exact absurd rfl (hgenuine _ (self_mem_parts _) value)

/-- The document of a calculation is read, as the calculation with its names respelled. -/
theorem exists_yaml (hgenuine : c.IsGenuine) (hfloats : c.HasFloats) (hnamed : c.IsNamed) :
    ∃ text, c.toYaml = .ok text ∧ ofYaml text = .ok (c.respelled 0) := by
  obtain ⟨fields, hfields⟩ := exists_isSpelled hgenuine hfloats 0
  have hread := read_write hfields.renders hfields.ne_nil hfields.nodup
  have hwire : (c.respelled 0).reread = .ok (c.respelled 0) := by
    have hfloats := hasFloats_respelled hfloats 0
    exact (reread_eq_ok (isGenuine_respelled hgenuine 0)).mpr
      ⟨toFloats_eq_self hfloats, isNamed_respelled hnamed 0, hfloats.isInRange⟩
  have hvalue : ofWire (.map (fields.map Field.entryRead)) = .ok (c.respelled 0) := by
    rwa [reread, hfields.read] at hwire
  refine ⟨_, by rw [toYaml, hfields.written]; rfl, ?_⟩
  rw [ofYaml, hread]
  simp only [hvalue]

/-- Every calculation of the four kinds has a document, which is read. It is read as the
calculation itself, unless 39 operations or more stand over a name that neither is plain nor fits
single quotes, in which a blank that is not the last character comes behind an escaped one that is
not the first. -/
theorem ofYaml_toYaml (c : Calculation) (hgenuine : c.IsGenuine) (hfloats : c.HasFloats)
    (hnamed : c.IsNamed) :
    ∃ text, c.toYaml = .ok text ∧ ofYaml text = .ok (c.respelled 0) ∧
      (ofYaml text = .ok c ↔ ∀ name ∈ c.namesAt 0,
        name.1 < 39 ∨ Yaml.isPlain name.2.toList = true ∨ fitsSingle name.2.toList = true ∨
          hasEscapedBlank true name.2.toList = false) := by
  obtain ⟨text, hwritten, hread⟩ := exists_yaml hgenuine hfloats hnamed
  refine ⟨text, hwritten, hread, ?_⟩
  rw [hread, Except.ok.injEq, respelled_eq_self_iff]

def nullMinusNaN : Calculation :=
  binary .minus (.variable "null") (binary .plus (.variable " # a:\n") (constant (.float .nan)))

theorem ofYaml_toYaml_null :
    nullMinusNaN.IsGenuine ∧ nullMinusNaN.HasFloats ∧ nullMinusNaN.IsNamed ∧
      ∃ text, nullMinusNaN.toYaml = .ok text ∧ ofYaml text = .ok nullMinusNaN := by
  have hgenuine : nullMinusNaN.IsGenuine := by simp [nullMinusNaN, IsGenuine]
  have hfloats : nullMinusNaN.HasFloats := by simp [nullMinusNaN, HasFloats]
  have hnamed : nullMinusNaN.IsNamed := by simp [nullMinusNaN, IsNamed]
  obtain ⟨text, hwritten, -, hsame⟩ := ofYaml_toYaml nullMinusNaN hgenuine hfloats hnamed
  exact ⟨hgenuine, hfloats, hnamed, text, hwritten, hsame.mpr (by decide)⟩

section

variable (n : Nat)

theorem forall_parts_iterate_ceiling {P : Calculation → Prop} (hP : ∀ a, P (ceiling a))
    (h : ∀ p ∈ c.parts, P p) : ∀ p ∈ (ceiling^[n] c).parts, P p := by
  induction n with
  | zero => exact h
  | succ n ih =>
      rw [Function.iterate_succ_apply']
      exact forall_parts_ceiling.mpr ⟨hP _, ih⟩

theorem respelled_iterate_ceiling (depth : Nat) (c : Calculation) :
    (ceiling^[n] c).respelled depth = ceiling^[n] (c.respelled (depth + n)) := by
  induction n generalizing depth with
  | zero => rfl
  | succ n ih =>
      rw [Function.iterate_succ_apply', Function.iterate_succ_apply', respelled, ih,
        Nat.add_assoc, Nat.add_comm 1 n]

end

/-- Under 39 ceilings the name of a line end and a blank is read as another name. -/
theorem ofYaml_toYaml_deep : ∃ text, (ceiling^[39] (.variable "a\n b")).toYaml = .ok text ∧
    ofYaml text = .ok (ceiling^[39] (.variable "a\n\\  b")) ∧
    ofYaml text ≠ .ok (ceiling^[39] (.variable "a\n b")) := by
  have hgenuine : (ceiling^[39] (.variable "a\n b")).IsGenuine :=
    forall_parts_iterate_ceiling 39 (by simp) (by simp)
  have hfloats : (ceiling^[39] (.variable "a\n b")).HasFloats :=
    forall_parts_iterate_ceiling 39 (by simp) (by simp)
  have hnamed : (ceiling^[39] (.variable "a\n b")).IsNamed :=
    forall_parts_iterate_ceiling 39 (by simp) (by simp)
  have hname : respelled 39 (.variable "a\n b") = .variable "a\n\\  b" := by decide
  obtain ⟨text, hwritten, hread⟩ := exists_yaml hgenuine hfloats hnamed
  rw [respelled_iterate_ceiling, Nat.zero_add, hname] at hread
  refine ⟨text, hwritten, hread, ?_⟩
  rw [hread, Ne, Except.ok.injEq]
  intro heq
  have hinjective : Function.Injective (ceiling^[39]) :=
    Function.Injective.iterate (fun _ _ => Calculation.ceiling.inj) 39
  exact absurd (hinjective heq) (by decide)

end Calculation

end ApneaScoring
