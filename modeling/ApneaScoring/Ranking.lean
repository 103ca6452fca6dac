import ApneaScoring.Comparator

/-! Items are sorted by binary insertion after an initial run, so ties keep their order. Tied
items share a rank and the next is skipped. -/

namespace ApneaScoring

namespace Ranking

variable {α : Type _}

/-- Where in `sorted`, between `lo` and `hi`, the first item stands that a new item
goes before. -/
def bisect (goesBefore : α → Bool) (sorted : List α) (lo hi : Nat) : Nat :=
  if lo < hi then
    let mid := lo + (hi - lo) / 2
    match sorted[mid]? with
    | some y =>
        if goesBefore y then bisect goesBefore sorted lo mid
        else bisect goesBefore sorted (mid + 1) hi
    | none => lo
  else lo
termination_by hi - lo

def insert (before : α → α → Bool) (sorted : List α) (x : α) : List α :=
  let place := bisect (before x) sorted 0 sorted.length
  sorted.take place ++ x :: sorted.drop place

/-- Extends a run while each item goes before the last one. The run is kept with its
last item in front. -/
def descendingRun (before : α → α → Bool) : List α → List α → List α × List α
  | last :: run, x :: rest =>
      if before x last then descendingRun before (x :: last :: run) rest
      else (last :: run, x :: rest)
  | run, rest => (run, rest)
termination_by _ rest => rest.length

def ascendingRun (before : α → α → Bool) : List α → List α → List α × List α
  | last :: run, x :: rest =>
      if before x last then (last :: run, x :: rest)
      else ascendingRun before (x :: last :: run) rest
  | run, rest => (run, rest)
termination_by _ rest => rest.length

/-- The longest run at the front, sorted, and the items after it. -/
def initialRun (before : α → α → Bool) : List α → List α × List α
  | x :: y :: rest =>
      if before y x then descendingRun before [y, x] rest
      else
        let (run, rest) := ascendingRun before [y, x] rest
        (run.reverse, rest)
  | items => (items, [])

def sort (before : α → α → Bool) (items : List α) : List α :=
  let (run, rest) := initialRun before items
  rest.foldl (insert before) run

/-- Ranks sorted items from the rank and the item before them. -/
def rankFrom (tied : α → α → Bool) : Nat → Nat × α → List α → List (Nat × α)
  | _, _, [] => []
  | index, (rank, previous), x :: rest =>
      let ranked := (if tied previous x then rank else index + 1, x)
      ranked :: rankFrom tied (index + 1) ranked rest

def rank (tied : α → α → Bool) : List α → List (Nat × α)
  | [] => []
  | x :: rest => (1, x) :: rankFrom tied 1 (1, x) rest

end Ranking

namespace Comparator

variable {α : Type _}

def sort (c : Comparator) (standing : α → Standing) (items : List α) : List α :=
  Ranking.sort (fun a b => c.compare (standing a) (standing b) == .lt) items

def rank (c : Comparator) (standing : α → Standing) (items : List α) : List (Nat × α) :=
  Ranking.rank (fun a b => c.compare (standing a) (standing b) == .eq)
    (c.sort standing items)

end Comparator

end ApneaScoring
