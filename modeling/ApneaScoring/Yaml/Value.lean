import ApneaScoring.Datum.Display
import ApneaScoring.Yaml.Tree

/-! A collection is complete before those within it are, so of several faults the one in the
fewest collections counts, and of these the first. -/

namespace ApneaScoring.Yaml

/-- An error, and in how many collections it lies. -/
structure Fault where
  depth : Nat
  error : Error
deriving DecidableEq

abbrev Valued (α : Type) := Except Fault α

namespace Valued

def fault {α : Type} (error : Error) : Valued α :=
  .error ⟨0, error⟩

def within {α : Type} (v : Valued α) : Valued α :=
  v.mapError fun fault => { fault with depth := fault.depth + 1 }

/-- Of two faults the shallower one counts, or else the first. -/
def both {α β γ : Type} (join : α → β → γ) (a : Valued α) (b : Valued β) : Valued γ :=
  match a, b with
  | .ok a, .ok b => .ok (join a b)
  | .error e, .ok _ => .error e
  | .ok _, .error f => .error f
  | .error e, .error f => .error (if f.depth < e.depth then f else e)

end Valued

namespace Kind

def isCollection : Kind → Bool
  | .list => true
  | .map => true
  | .set => true
  | .orderedMap => true
  | .pairs => true
  | _ => false

def mismatch {α : Type} (kind : Kind) : Valued α :=
  if kind.isCollection then .within (.fault .malformed) else .fault .malformed

def valueOf (kind : Kind) (text? : Option String) : Valued Datum :=
  match text? with
  | some content =>
      if kind.isCollection then kind.mismatch
      else (kind.value content).mapError fun error => ⟨0, error⟩
  | none => kind.mismatch

end Kind

/-- Sets a key. A key that is there already keeps its place. -/
def putEntry (entries : List (Datum × Datum)) (key value : Datum) : List (Datum × Datum) :=
  match entries with
  | [] => [(key, value)]
  | (k, v) :: rest =>
      if k.sameKey key then (k, value) :: rest else (k, v) :: putEntry rest key value

def distinctEntries (entries : List (Datum × Datum)) : List (Datum × Datum) :=
  entries.foldl (fun done entry => putEntry done entry.1 entry.2) []

def displaySet (keys : List Datum) : String :=
  if keys.isEmpty then "set()" else "\x7b" ++ Datum.separated (keys.map (·.display)) ++ "\x7d"

def displayPair (entry : Datum × Datum) : String :=
  "(" ++ Datum.separated [entry.1.display, entry.2.display] ++ ")"

/-- The entries that are merged into a map, and its own ones. -/
structure Parts where
  merged : Valued (List (Datum × Datum))
  own : Valued (List (Datum × Datum))

namespace Parts

def empty : Parts := ⟨.ok [], .ok []⟩

def append (a b : Parts) : Parts :=
  ⟨.both (· ++ ·) a.merged b.merged, .both (· ++ ·) a.own b.own⟩

def all (p : Parts) : Valued (List (Datum × Datum)) :=
  .both (· ++ ·) p.merged p.own

end Parts

namespace Tree

mutual

def mergesMaps : List (Tree × Tree) → Bool
  | [] => true
  | entry :: entries => mergesMap entry && mergesMaps entries

def mergesMap : Tree × Tree → Bool
  | (key, value) => if key.kind = .merge then value.isMerged else true

def isMerged : Tree → Bool
  | map _ entries => mergesMaps entries
  | list _ items => areMerged items
  | scalar .. => false

def areMerged : List Tree → Bool
  | [] => true
  | map _ entries :: items => mergesMaps entries && areMerged items
  | _ => false

end

def keyOf (key : Tree) (value : Valued Datum) : Valued Datum :=
  if key.kind = .default then Kind.text.valueOf key.text?
  else if key.kind.isCollection then .fault .malformed
  else value

mutual

def toDatum : Tree → Valued Datum
  | scalar kind text => kind.valueOf (some text)
  | list kind items => match kind with
      | .list => .within ((toDatums items).map .list)
      | .orderedMap => .within ((toPairs items).map .list)
      | .pairs => .within ((toPairs items).map .list)
      | kind => kind.mismatch
  | map kind entries => match kind with
      | .map => .within ((toEntries entries).map .map)
      | .set => .within ((toEntries entries).map fun es => .other (displaySet (es.map (·.1))))
      | kind => kind.valueOf (defaultText? entries)

def toDatums : List Tree → Valued (List Datum)
  | [] => .ok []
  | item :: items => .both (· :: ·) (toDatum item) (toDatums items)

def toPairs : List Tree → Valued (List Datum)
  | [] => .ok []
  | map _ [entry] :: items =>
      .both (fun entry pairs => .other (displayPair entry) :: pairs) (toPair entry)
        (toPairs items)
  | _ => .fault .malformed

def toPair : Tree × Tree → Valued (Datum × Datum)
  | (key, value) => .both (·, ·) (toDatum key) (toDatum value)

def toEntries (entries : List (Tree × Tree)) : Valued (List (Datum × Datum)) :=
  if mergesMaps entries then (toParts entries).all.map distinctEntries
  else .fault .malformed

def toParts : List (Tree × Tree) → Parts
  | [] => .empty
  | entry :: entries => (toPart entry).append (toParts entries)

def toPart : Tree × Tree → Parts
  | (key, value) =>
      if key.kind = .merge then ⟨mergedEntries value, .ok []⟩
      else
        ⟨.ok [], .both (fun k v => [(k, v)]) (keyOf key (toDatum key)) (toDatum value)⟩

/-- The entries that a value adds where it is merged; of several maps the first one
prevails. -/
def mergedEntries : Tree → Valued (List (Datum × Datum))
  | map _ entries => (toParts entries).all
  | list _ items => mergedItems items
  | scalar .. => .fault .malformed

def mergedItems : List Tree → Valued (List (Datum × Datum))
  | [] => .ok []
  | item :: items => .both (· ++ ·) (mergedItems items) (mergedEntries item)

end

end Tree

end ApneaScoring.Yaml
