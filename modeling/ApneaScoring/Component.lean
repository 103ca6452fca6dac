import ApneaScoring.Text.Blank

namespace ApneaScoring

inductive Component
  | duration
  | depth
  | distance
  | points
deriving DecidableEq, Repr

namespace Component

def all : List Component := [.duration, .depth, .distance, .points]

@[simp] theorem mem_all (c : Component) : c ∈ all := by
  cases c <;> simp [all]

theorem nodup_all : all.Nodup := by decide

def name : Component → String
  | duration => "Duration"
  | depth => "Depth"
  | distance => "Distance"
  | points => "Points"

def key : Component → String
  | duration => "duration"
  | depth => "depth"
  | distance => "distance"
  | points => "points"

/-- Names are read without regard to case and surrounding blanks. -/
def parse? (s : String) : Option Component :=
  let wanted := Text.lower (Text.strip s)
  all.find? (·.key == wanted)

end Component

end ApneaScoring
