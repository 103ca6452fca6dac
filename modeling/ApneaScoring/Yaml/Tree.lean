import ApneaScoring.Yaml.Node

namespace ApneaScoring.Yaml

inductive Tree
  | scalar (kind : Kind) (text : String)
  | list (kind : Kind) (items : List Tree)
  | map (kind : Kind) (entries : List (Tree × Tree))

/-- The trees of anchors; one that is not complete has none yet. -/
abbrev Anchors := List (String × Option Tree)

namespace Anchors

def add (anchors : Anchors) (name : String) : Except Error Anchors :=
  if (anchors.lookup name).isSome then .error .malformed else .ok ((name, none) :: anchors)

/-- A node may not hold itself. -/
def tree (anchors : Anchors) (name : String) : Except Error Tree :=
  match anchors.lookup name with
  | some (some tree) => .ok tree
  | _ => .error .malformed

end Anchors

def Kind.ofScalar (isPlain : Bool) (text : String) : Kind :=
  if isPlain then .ofText text.toList else .text

namespace Node

mutual

def resolve (kind? : Option Kind) (anchors : Anchors) : Node → Except Error (Tree × Anchors)
  | scalar isPlain text => .ok (.scalar (kind?.getD (.ofScalar isPlain text)) text, anchors)
  | list items => do
      let (items, anchors) ← resolveItems anchors items
      return (.list (kind?.getD .list) items, anchors)
  | map entries => do
      let (entries, anchors) ← resolveEntries anchors entries
      return (.map (kind?.getD .map) entries, anchors)
  | reference name => do
      let tree ← anchors.tree name
      return (tree, anchors)
  | described none kind? content => resolve kind? anchors content
  | described (some name) kind? content => do
      let anchors ← anchors.add name
      let (tree, anchors) ← resolve kind? anchors content
      return (tree, (name, some tree) :: anchors)

def resolveItems (anchors : Anchors) : List Node → Except Error (List Tree × Anchors)
  | [] => .ok ([], anchors)
  | item :: items => do
      let (tree, anchors) ← resolve none anchors item
      let (trees, anchors) ← resolveItems anchors items
      return (tree :: trees, anchors)

def resolveEntries (anchors : Anchors) :
    List (Node × Node) → Except Error (List (Tree × Tree) × Anchors)
  | [] => .ok ([], anchors)
  | entry :: entries => do
      let (tree, anchors) ← resolveEntry anchors entry
      let (trees, anchors) ← resolveEntries anchors entries
      return (tree :: trees, anchors)

def resolveEntry (anchors : Anchors) : Node × Node → Except Error ((Tree × Tree) × Anchors)
  | (key, value) => do
      let (key, anchors) ← resolve none anchors key
      let (value, anchors) ← resolve none anchors value
      return ((key, value), anchors)

end

def toTree (n : Node) : Except Error Tree :=
  (n.resolve none []).map (·.1)

end Node

namespace Tree

def kind : Tree → Kind
  | scalar kind _ => kind
  | list kind _ => kind
  | map kind _ => kind

mutual

def text? : Tree → Option String
  | scalar _ text => some text
  | list .. => none
  | map _ entries => defaultText? entries

def defaultText? : List (Tree × Tree) → Option String
  | [] => none
  | entry :: entries => (entryText? entry).getD (defaultText? entries)

def entryText? : Tree × Tree → Option (Option String)
  | (key, value) => if key.kind = .default then some (text? value) else none

end

end Tree

end ApneaScoring.Yaml
