import ApneaScoring.Rule.Repository
import Mathlib.Data.List.Induction
import Mathlib.Data.List.Nodup

namespace ApneaScoring

section

variable {α : Type} [DecidableEq α]

theorem eraseDups_of_nodup {items : List α} (h : items.Nodup) : items.eraseDups = items := by
  induction items with
  | nil => rfl
  | cons x items ih =>
      rw [List.nodup_cons] at h
      have hkept : items.filter (!· == x) = items := by
        rw [List.filter_eq_self]
        intro kept hmem
        simpa using ne_of_mem_of_not_mem hmem h.1
      rw [List.eraseDups_cons, hkept, ih h.2]

theorem eraseDups_concat (items : List α) (x : α) :
    (items ++ [x]).eraseDups =
      if x ∈ items then items.eraseDups else items.eraseDups ++ [x] := by
  rw [List.eraseDups_append]
  by_cases h : x ∈ items <;> simp [List.removeAll, List.eraseDups_cons, h]

end

namespace Repository

variable {r : Repository} {rule : Rule} {name : String}

theorem find?_replace (rule : Rule) (rules : List Rule) (name : String) :
    (replace rule rules).find? (·.name == name) =
      (rules.find? (·.name == name)).map fun r => if r.name = rule.name then rule else r := by
  unfold replace
  rw [List.find?_map]
  congr 2
  funext r
  by_cases h : r.name = rule.name <;> simp [h]

theorem find?_insert (r : Repository) (rule : Rule) (name : String) :
    (r.insert rule).find? name = if rule.name = name then some rule else r.find? name := by
  unfold insert find?
  split
  · next hmem =>
      rw [find?_replace]
      by_cases hname : rule.name = name
      · obtain ⟨kept, hkept, hsame⟩ := List.mem_map.mp hmem
        cases hfind : r.rules.find? (·.name == name) with
        | none =>
            have hne := List.find?_eq_none.mp hfind kept hkept
            simp [hsame, hname] at hne
        | some found =>
            have hfound : found.name = name := by simpa using List.find?_some hfind
            simp [hname, hfound]
      · rw [if_neg hname]
        cases hfind : r.rules.find? (·.name == name) with
        | none => rfl
        | some found =>
            have hfound : found.name = name := by simpa using List.find?_some hfind
            simp [hfound, Ne.symm hname]
  · next hmem =>
      rw [List.find?_append]
      by_cases hname : rule.name = name
      · subst hname
        have hnone : r.rules.find? (·.name == rule.name) = none := by
          rw [List.find?_eq_none]
          intro kept hkept hsame
          exact hmem (List.mem_map.mpr ⟨kept, hkept, by simpa using hsame⟩)
        simp [hnone]
      · simp [hname]

theorem names_insert (r : Repository) (rule : Rule) :
    (r.insert rule).names = if rule.name ∈ r.names then r.names else r.names ++ [rule.name] := by
  unfold insert names
  split
  · exact map_name_replace _ _
  · simp

theorem rules_insert_of_notMem (h : rule.name ∉ r.names) :
    (r.insert rule).rules = r.rules ++ [rule] := by
  unfold names at h
  unfold insert
  rw [dif_neg h]

def insertAll (r : Repository) (rules : List Rule) : Repository :=
  rules.foldl insert r

@[simp] theorem insertAll_nil (r : Repository) : r.insertAll [] = r := rfl

theorem insertAll_append (r : Repository) (rules later : List Rule) :
    r.insertAll (rules ++ later) = (r.insertAll rules).insertAll later :=
  List.foldl_append

theorem insertAll_concat (r : Repository) (rules : List Rule) (rule : Rule) :
    r.insertAll (rules ++ [rule]) = (r.insertAll rules).insert rule :=
  r.insertAll_append rules [rule]

theorem find?_insertAll (r : Repository) (rules : List Rule) (name : String) :
    (r.insertAll rules).find? name =
      (rules.filter (·.name == name)).getLast?.or (r.find? name) := by
  induction rules using List.reverseRecOn with
  | nil => simp
  | append_singleton rules rule ih =>
      rw [insertAll_concat, find?_insert, ih, List.filter_append]
      by_cases h : rule.name = name <;> simp [h]

theorem find?_ofList (rules : List Rule) (name : String) :
    (ofList rules).find? name = (rules.filter (·.name == name)).getLast? := by
  rw [← Option.or_none (o := (rules.filter (·.name == name)).getLast?)]
  exact empty.find?_insertAll rules name

theorem names_insertAll (r : Repository) (rules : List Rule) :
    (r.insertAll rules).names = (r.names ++ rules.map (·.name)).eraseDups := by
  induction rules using List.reverseRecOn with
  | nil =>
      rw [insertAll_nil, List.map_nil, List.append_nil]
      exact (eraseDups_of_nodup r.names_nodup).symm
  | append_singleton rules rule ih =>
      rw [insertAll_concat, names_insert, ih, List.map_append, ← List.append_assoc,
        List.map_singleton, eraseDups_concat]
      simp only [List.mem_eraseDups]

theorem rules_ofList {rules : List Rule} (h : (rules.map (·.name)).Nodup) :
    (ofList rules).rules = rules := by
  induction rules using List.reverseRecOn with
  | nil => rfl
  | append_singleton rules rule ih =>
      rw [List.map_append, List.nodup_append] at h
      have hrules := ih h.1
      have hnew : rule.name ∉ (ofList rules).names := by
        unfold names
        rw [hrules]
        intro hmem
        exact h.2.2 _ hmem _ (by simp) rfl
      have hinsert : ofList (rules ++ [rule]) = (ofList rules).insert rule :=
        empty.insertAll_concat rules rule
      rw [hinsert, rules_insert_of_notMem hnew, hrules]

theorem find?_of_mem (h : rule ∈ r.rules) : r.find? rule.name = some rule := by
  unfold find?
  cases hfind : r.rules.find? (·.name == rule.name) with
  | none => simpa using List.find?_eq_none.mp hfind rule h
  | some found =>
      have hname : found.name = rule.name := by simpa using List.find?_some hfind
      rw [List.inj_on_of_nodup_map r.names_nodup (List.mem_of_find?_eq_some hfind) h hname]

theorem map_find?_names (r : Repository) : r.names.map r.find? = r.rules.map some := by
  unfold names
  rw [List.map_map]
  apply List.map_congr_left
  intro rule hrule
  exact find?_of_mem hrule

theorem isSome_find? (r : Repository) (name : String) :
    (r.find? name).isSome = r.contains name := by
  rw [Bool.eq_iff_iff]
  simp [find?, contains, names]

theorem nodup_sortedNames (r : Repository) : r.sortedNames.Nodup :=
  ((List.mergeSort_perm _ _).nodup_iff).mpr r.names_nodup

theorem mem_sortedNames : name ∈ r.sortedNames ↔ name ∈ r.names :=
  (List.mergeSort_perm _ _).mem_iff

theorem pairwise_sortedNames (r : Repository) : r.sortedNames.Pairwise (· ≤ ·) := by
  have hsorted : r.sortedNames.Pairwise fun a b => decide (a ≤ b) = true := by
    apply List.pairwise_mergeSort
    · intro a b c hab hbc
      simp only [decide_eq_true_eq] at hab hbc ⊢
      exact String.le_trans hab hbc
    · intro a b
      simp only [Bool.or_eq_true, decide_eq_true_eq]
      exact String.le_total a b
  simpa using hsorted

theorem nodup_federationNames : Federations.names.Nodup := by decide

theorem rules_ofSettings (s : Settings) :
    (ofSettings s).rules = Federations.all.filter fun rule => s.isEnabled rule.name := by
  apply rules_ofList
  exact nodup_federationNames.sublist (List.filter_sublist.map _)

theorem names_ofSettings (s : Settings) :
    (ofSettings s).names = Federations.names.filter s.isEnabled := by
  unfold names Federations.names
  rw [rules_ofSettings, List.filter_map]
  rfl

theorem find?_ofSettings (s : Settings) (name : String) :
    (ofSettings s).find? name =
      Federations.all.find? fun rule => s.isEnabled rule.name && rule.name == name := by
  unfold find?
  rw [rules_ofSettings, List.find?_filter]
  congr 1
  funext rule
  rw [Bool.eq_iff_iff]
  simp

end Repository

end ApneaScoring
