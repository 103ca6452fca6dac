import ApneaScoring.Number.Binary64

namespace ApneaScoring

inductive Datum
  | null
  | bool (value : Bool)
  | integer (value : Int)
  | float (value : Binary64)
  | text (value : String)
  /-- A value of another kind, such as a date, by the form it is displayed in. -/
  | other (displayed : String)
  | list (items : List Datum)
  | map (entries : List (Datum × Datum))
deriving Inhabited

namespace Datum

mutual

def same : Datum → Datum → Bool
  | null, null => true
  | bool a, bool b => a == b
  | integer a, integer b => a == b
  | float a, float b => a == b
  | text a, text b => a == b
  | other a, other b => a == b
  | list as, list bs => sameItems as bs
  | map as, map bs => sameEntries as bs
  | _, _ => false

def sameItems : List Datum → List Datum → Bool
  | [], [] => true
  | a :: as, b :: bs => same a b && sameItems as bs
  | _, _ => false

def sameEntries : List (Datum × Datum) → List (Datum × Datum) → Bool
  | [], [] => true
  | a :: as, b :: bs => sameEntry a b && sameEntries as bs
  | _, _ => false

def sameEntry : Datum × Datum → Datum × Datum → Bool
  | (k, v), (l, w) => same k l && same v w

end

mutual

theorem same_iff : ∀ a b : Datum, same a b = true ↔ a = b
  | null, b | bool _, b | integer _, b | float _, b | text _, b | other _, b => by
      cases b <;> simp [same]
  | list as, b => by cases b <;> simp [same, sameItems_iff as]
  | map as, b => by cases b <;> simp [same, sameEntries_iff as]

theorem sameItems_iff : ∀ as bs : List Datum, sameItems as bs = true ↔ as = bs
  | [], bs => by cases bs <;> simp [sameItems]
  | a :: as, bs => by cases bs <;> simp [sameItems, same_iff a, sameItems_iff as]

theorem sameEntries_iff :
    ∀ as bs : List (Datum × Datum), sameEntries as bs = true ↔ as = bs
  | [], bs => by cases bs <;> simp [sameEntries]
  | a :: as, bs => by cases bs <;> simp [sameEntries, sameEntry_iff a, sameEntries_iff as]

theorem sameEntry_iff : ∀ a b : Datum × Datum, sameEntry a b = true ↔ a = b
  | (k, v), (l, w) => by simp [sameEntry, same_iff k, same_iff v]

end

instance : DecidableEq Datum := fun a b => decidable_of_iff _ (same_iff a b)

/-- Equality of numbers across their kinds; a truth value is the number 0 or 1. -/
def sameInteger : Int → Datum → Bool
  | i, bool b => i == if b then 1 else 0
  | i, integer j => i == j
  | i, float x => x.isFinite && x.position? == some (i * unitsPerOne)
  | _, _ => false

def sameNumber : Datum → Datum → Bool
  | bool b, d => sameInteger (if b then 1 else 0) d
  | integer i, d => sameInteger i d
  | d, bool b => sameInteger (if b then 1 else 0) d
  | d, integer i => sameInteger i d
  | float x, float y => x.eqv y
  | _, _ => false

def sameKey (a b : Datum) : Bool :=
  a.sameNumber b || a.same b

def get? (key : String) : Datum → Option Datum
  | map entries => (entries.find? fun entry => entry.1 == text key).map (·.2)
  | _ => none

theorem exists_entries_of_get? {d value : Datum} {key : String} (h : d.get? key = some value) :
    ∃ entries, d = map entries := by
  cases d with
  | map entries => exact ⟨entries, rfl⟩
  | _ => cases h

theorem get?_cons (entry : Datum × Datum) (entries : List (Datum × Datum)) (key : String) :
    (map (entry :: entries)).get? key =
      if entry.1 = text key then some entry.2 else (map entries).get? key := by
  by_cases h : entry.1 = text key <;> simp [get?, h]

theorem sizeOf_lt_of_get? {entries : List (Datum × Datum)} {key : String} {value : Datum}
    (h : (map entries).get? key = some value) : sizeOf value < sizeOf (map entries) := by
  induction entries with
  | nil => cases h
  | cons entry entries ih =>
      rw [get?_cons] at h
      obtain ⟨k, v⟩ := entry
      split at h
      · obtain rfl := Option.some.inj h
        simp
        omega
      · have hrest := ih h
        simp at hrest ⊢
        omega

def isComposite : Datum → Bool
  | list _ => true
  | map _ => true
  | _ => false

end Datum

end ApneaScoring
