import ApneaScoring.Rule.Federations
import ApneaScoring.Settings.Basic

namespace ApneaScoring

structure Repository where
  rules : List Rule := []
  names_nodup : (rules.map (·.name)).Nodup := by exact List.nodup_nil

namespace Repository

def empty : Repository := {}

def names (r : Repository) : List String :=
  r.rules.map (·.name)

def size (r : Repository) : Nat :=
  r.rules.length

def contains (r : Repository) (name : String) : Bool :=
  r.names.contains name

def find? (r : Repository) (name : String) : Option Rule :=
  r.rules.find? (·.name == name)

def get (r : Repository) (name : String) : Rule :=
  (r.find? name).getD .unknown

def replace (rule : Rule) (rules : List Rule) : List Rule :=
  rules.map fun r => if r.name = rule.name then rule else r

theorem map_name_replace (rule : Rule) (rules : List Rule) :
    (replace rule rules).map (·.name) = rules.map (·.name) := by
  induction rules with
  | nil => rfl
  | cons r rules ih =>
      simp only [replace, List.map_cons, List.cons.injEq]
      constructor
      · split
        · next h => exact h.symm
        · rfl
      · exact ih

/-- Registers a rule, in the place of a rule of the same name if there is one. -/
def insert (r : Repository) (rule : Rule) : Repository :=
  if h : rule.name ∈ r.rules.map (·.name) then
    { rules := replace rule r.rules
      names_nodup := by rw [map_name_replace]; exact r.names_nodup }
  else
    { rules := r.rules ++ [rule]
      names_nodup := by
        rw [List.map_append, List.nodup_append]
        refine ⟨r.names_nodup, by simp, ?_⟩
        intro a ha b hb
        rw [List.map_singleton, List.mem_singleton] at hb
        subst hb
        intro hab
        subst hab
        exact h ha }

def ofList (rules : List Rule) : Repository :=
  rules.foldl insert empty

def sortedNames (r : Repository) : List String :=
  Settings.sortedTexts r.names

def ofSettings (s : Settings) : Repository :=
  ofList (Federations.all.filter fun rule => s.isEnabled rule.name)

end Repository

end ApneaScoring
