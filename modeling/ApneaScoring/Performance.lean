import ApneaScoring.Component
import ApneaScoring.Datum.Numeric

namespace ApneaScoring

structure Performance where
  duration : Option Binary64 := none
  depth : Option Binary64 := none
  distance : Option Binary64 := none
  points : Option Binary64 := none
deriving DecidableEq, Inhabited

namespace Performance

def empty : Performance := {}

def get (p : Performance) : Component → Option Binary64
  | .duration => p.duration
  | .depth => p.depth
  | .distance => p.distance
  | .points => p.points

def set (p : Performance) (c : Component) (value : Option Binary64) : Performance :=
  match c with
  | .duration => { p with duration := value }
  | .depth => { p with depth := value }
  | .distance => { p with distance := value }
  | .points => { p with points := value }

def only (c : Component) (value : Option Binary64) : Performance :=
  empty.set c value

def isEmpty (p : Performance) : Bool :=
  Component.all.all fun c => (p.get c).isNone

def entries (p : Performance) : List (String × Binary64) :=
  Component.all.filterMap fun c => (p.get c).map (c.key, ·)

/-- Reads the measurements of a record; what is no measurement stays absent. -/
def ofRecord (record : Datum) : Except NumberError Performance := do
  let read (c : Component) := ((record.get? c.key).getD .null).measure?
  let duration ← read .duration
  let depth ← read .depth
  let distance ← read .distance
  let points ← read .points
  return { duration, depth, distance, points }

def toRecord (p : Performance) : Datum :=
  .map (p.entries.map fun entry => (.text entry.1, .float entry.2))

@[simp] theorem get_empty (c : Component) : empty.get c = none := by
  cases c <;> rfl

@[simp] theorem get_set_self (p : Performance) (c : Component) (v : Option Binary64) :
    (p.set c v).get c = v := by
  cases c <;> rfl

@[simp] theorem get_set_of_ne (p : Performance) {c d : Component}
    (v : Option Binary64) (h : d ≠ c) : (p.set c v).get d = p.get d := by
  cases c <;> cases d <;> first | rfl | exact absurd rfl h

@[simp] theorem get_only_self (c : Component) (v : Option Binary64) : (only c v).get c = v :=
  get_set_self empty c v

@[simp] theorem get_only_of_ne {c d : Component} (v : Option Binary64) (h : d ≠ c) :
    (only c v).get d = none :=
  (get_set_of_ne empty v h).trans (get_empty d)

@[simp] theorem set_get (p : Performance) (c : Component) : p.set c (p.get c) = p := by
  cases c <;> rfl

@[simp] theorem set_set (p : Performance) (c : Component) (v w : Option Binary64) :
    (p.set c v).set c w = p.set c w := by
  cases c <;> rfl

theorem set_comm (p : Performance) {c d : Component} (h : c ≠ d) (v w : Option Binary64) :
    (p.set c v).set d w = (p.set d w).set c v := by
  cases c <;> cases d <;> first | rfl | exact absurd rfl h

@[ext] theorem ext_get {p q : Performance} (h : ∀ c, p.get c = q.get c) : p = q := by
  cases p
  cases q
  have hduration := h .duration
  have hdepth := h .depth
  have hdistance := h .distance
  have hpoints := h .points
  simp_all [get]

end Performance

end ApneaScoring
