import ApneaScoring.Yaml.Token

/-! A document is built token by token on a stack of open collections: `Stack.step` first
completes what the token shows to be missing or ended, then takes the token. -/

namespace ApneaScoring.Yaml

inductive Node
  | scalar (isPlain : Bool) (text : String)
  | list (items : List Node)
  | map (entries : List (Node × Node))
  | reference (name : String)
  | described (anchor : Option String) (kind : Option Kind) (content : Node)
deriving Inhabited

/-- What is said of a node before it begins. -/
structure Properties where
  anchor : Option String
  tag : Option Tag
deriving DecidableEq

namespace Properties

def add? (p : Properties) : Token → Option Properties
  | .anchor name => if p.anchor.isNone then some { p with anchor := some name } else none
  | .tag tag => if p.tag.isNone then some { p with tag := some tag } else none
  | _ => none

end Properties

namespace Node

def empty : Node := scalar true ""

def asPlain : Node → Node
  | scalar _ text => scalar true text
  | n => n

def describe (p : Properties) (n : Node) : Node :=
  match p.tag with
  | none => described p.anchor none n
  | some .asPlain => described p.anchor none n.asPlain
  | some (.kind kind) => described p.anchor (some kind) n

end Node

/-- How far an entry of a map has come. -/
inductive Slot
  | ready
  | atKey
  | afterKey (key : Node)
  | atValue (key : Node)
  /-- Complete, and not yet parted from the next one. -/
  | done

/-- A document or a collection that is open. What it holds comes last first. -/
inductive Frame
  | start
  | opened
  | finished (root : Option Node)
  | list (items : List Node) (awaits : Bool)
  /-- A list at the column of the map around it, which any other token ends. -/
  | openList (items : List Node) (awaits : Bool)
  | map (entries : List (Node × Node)) (slot : Slot)
  | flowList (items : List Node) (ready : Bool)
  /-- A map of one entry within a flow list. -/
  | pair (slot : Slot)
  | flowMap (entries : List (Node × Node)) (slot : Slot)
  | awaited (properties : Properties)

abbrev Stack := List Frame

namespace Frame

def isBlock : Frame → Bool
  | flowList .. => false
  | pair _ => false
  | flowMap .. => false
  | _ => true

def isMap : Frame → Bool
  | map .. => true
  | _ => false

def awaitsKey : Slot → Bool
  | .atKey => true
  | _ => false

def awaitsValue : Slot → Bool
  | .atValue _ => true
  | _ => false

/-- Whether a token comes where a node may be missing, and is. -/
def lacks : Frame → Token → Bool
  | opened, t => t = .documentStart || t = .documentEnd || t = .textEnd
  | list _ awaits, t => awaits && (t = .entry || t = .blockEnd)
  | openList _ awaits, t =>
      awaits && (t = .entry || t = .key || t = .value || t = .blockEnd)
  | map _ slot, t =>
      (awaitsKey slot || awaitsValue slot) && (t = .key || t = .value || t = .blockEnd)
  | pair slot, t =>
      (awaitsKey slot && (t = .value || t = .comma || t = .flowListEnd)) ||
        (awaitsValue slot && (t = .comma || t = .flowListEnd))
  | flowMap _ slot, t =>
      (awaitsKey slot && (t = .value || t = .comma || t = .flowMapEnd)) ||
        (awaitsValue slot && (t = .comma || t = .flowMapEnd))
  | _, _ => false

end Frame

namespace Stack

def holder? : Stack → Option Frame
  | .awaited _ :: frame :: _ => some frame
  | frame :: _ => some frame
  | [] => none

def admits (stack : Stack) (p : Properties) : Token → Bool
  | .scalar .. => true
  | .flowListStart => true
  | .flowMapStart => true
  | .listStart => stack.holder?.any Frame.isBlock
  | .mapStart => stack.holder?.any Frame.isBlock
  | .entry => stack.holder?.any Frame.isMap
  | t => (p.add? t).isSome

def deliver : Node → Stack → Stack
  | n, .awaited p :: rest => deliver (n.describe p) rest
  | n, .list items _ :: rest => .list (n :: items) false :: rest
  | n, .openList items _ :: rest => .openList (n :: items) false :: rest
  | n, .map entries (.atValue key) :: rest => .map ((key, n) :: entries) .ready :: rest
  | n, .map entries _ :: rest => .map entries (.afterKey n) :: rest
  | n, .flowList items _ :: rest => .flowList (n :: items) false :: rest
  | n, .pair (.atValue key) :: rest => deliver (.map [(key, n)]) rest
  | n, .pair _ :: rest => .pair (.afterKey n) :: rest
  | n, .flowMap entries (.atValue key) :: rest =>
      .flowMap ((key, n) :: entries) .done :: rest
  | n, .flowMap entries .atKey :: rest => .flowMap entries (.afterKey n) :: rest
  | n, .flowMap entries _ :: rest => .flowMap ((n, .empty) :: entries) .done :: rest
  | n, _ :: rest => .finished (some n) :: rest
  | n, [] => [.finished (some n)]

def fillMissing (t : Token) : Stack → Stack
  | .awaited p :: rest =>
      if admits (.awaited p :: rest) p t then .awaited p :: rest
      else deliver (Node.empty.describe p) rest
  | frame :: rest =>
      if frame.lacks t then deliver .empty (frame :: rest) else frame :: rest
  | [] => []

def endOpenList (t : Token) : Stack → Stack
  | .openList items false :: rest =>
      if t = .entry then .openList items false :: rest
      else deliver (.list items.reverse) rest
  | stack => stack

def fillValue (t : Token) : Stack → Stack
  | .map entries (.afterKey key) :: rest =>
      if t = .value then .map entries (.afterKey key) :: rest
      else deliver .empty (.map entries (.atValue key) :: rest)
  | .pair (.afterKey key) :: rest =>
      if t = .value then .pair (.afterKey key) :: rest
      else deliver .empty (.pair (.atValue key) :: rest)
  | .flowMap entries (.afterKey key) :: rest =>
      if t = .value then .flowMap entries (.afterKey key) :: rest
      else deliver .empty (.flowMap entries (.atValue key) :: rest)
  | stack => stack

def begin (stack : Stack) : Token → Except Error Stack
  | .scalar isPlain text => .ok (deliver (.scalar isPlain text) stack)
  | .reference name => .ok (deliver (.reference name) stack)
  | .anchor name => .ok (.awaited ⟨some name, none⟩ :: stack)
  | .tag tag => .ok (.awaited ⟨none, some tag⟩ :: stack)
  | .flowListStart => .ok (.flowList [] true :: stack)
  | .flowMapStart => .ok (.flowMap [] .ready :: stack)
  | .listStart =>
      if stack.holder?.any Frame.isBlock then .ok (.list [] false :: stack)
      else .error .malformed
  | .mapStart =>
      if stack.holder?.any Frame.isBlock then .ok (.map [] .ready :: stack)
      else .error .malformed
  | .entry =>
      if stack.holder?.any Frame.isMap then .ok (.openList [] true :: stack)
      else .error .malformed
  | .fault e => .error e
  | _ => .error .malformed

def refuse : Token → Except Error Stack
  | .fault e => .error e
  | _ => .error .malformed

def take (t : Token) : Stack → Except Error Stack
  | .start :: rest => match t with
      | .documentStart => .ok (.opened :: rest)
      | .textEnd => .ok (.finished none :: rest)
      | t => begin (.start :: rest) t
  | .opened :: rest => begin (.opened :: rest) t
  | .finished root :: rest =>
      if t = .documentEnd || t = .textEnd then .ok (.finished root :: rest) else refuse t
  | .list items true :: rest => begin (.list items true :: rest) t
  | .list items false :: rest => match t with
      | .entry => .ok (.list items true :: rest)
      | .blockEnd => .ok (deliver (.list items.reverse) rest)
      | t => refuse t
  | .openList items true :: rest => begin (.openList items true :: rest) t
  | .openList items false :: rest => match t with
      | .entry => .ok (.openList items true :: rest)
      | t => refuse t
  | .map entries .ready :: rest => match t with
      | .key => .ok (.map entries .atKey :: rest)
      | .blockEnd => .ok (deliver (.map entries.reverse) rest)
      | t => refuse t
  | .map entries .atKey :: rest => begin (.map entries .atKey :: rest) t
  | .map entries (.afterKey key) :: rest =>
      if t = .value then .ok (.map entries (.atValue key) :: rest) else refuse t
  | .map entries (.atValue key) :: rest => begin (.map entries (.atValue key) :: rest) t
  | .map _ .done :: _ => refuse t
  | .flowList items true :: rest => match t with
      | .key => .ok (.pair .atKey :: .flowList items true :: rest)
      | .flowListEnd => .ok (deliver (.list items.reverse) rest)
      | t => begin (.flowList items true :: rest) t
  | .flowList items false :: rest => match t with
      | .comma => .ok (.flowList items true :: rest)
      | .flowListEnd => .ok (deliver (.list items.reverse) rest)
      | t => refuse t
  | .pair .atKey :: rest => begin (.pair .atKey :: rest) t
  | .pair (.afterKey key) :: rest =>
      if t = .value then .ok (.pair (.atValue key) :: rest) else refuse t
  | .pair (.atValue key) :: rest => begin (.pair (.atValue key) :: rest) t
  | .pair _ :: _ => refuse t
  | .flowMap entries .ready :: rest => match t with
      | .key => .ok (.flowMap entries .atKey :: rest)
      | .flowMapEnd => .ok (deliver (.map entries.reverse) rest)
      | t => begin (.flowMap entries .ready :: rest) t
  | .flowMap entries .atKey :: rest => begin (.flowMap entries .atKey :: rest) t
  | .flowMap entries (.afterKey key) :: rest =>
      if t = .value then .ok (.flowMap entries (.atValue key) :: rest) else refuse t
  | .flowMap entries (.atValue key) :: rest =>
      begin (.flowMap entries (.atValue key) :: rest) t
  | .flowMap entries .done :: rest => match t with
      | .comma => .ok (.flowMap entries .ready :: rest)
      | .flowMapEnd => .ok (deliver (.map entries.reverse) rest)
      | t => refuse t
  | .awaited p :: rest => match p.add? t with
      | some p => .ok (.awaited p :: rest)
      | none => begin (.awaited p :: rest) t
  | [] => refuse t

def step (stack : Stack) (t : Token) : Except Error Stack :=
  take t (fillValue t (endOpenList t (fillMissing t stack)))

def run (stack : Stack) (tokens : List Token) : Except Error Stack :=
  tokens.foldlM step stack

theorem run_append (stack : Stack) (xs ys : List Token) :
    stack.run (xs ++ ys) = stack.run xs >>= fun s => s.run ys :=
  List.foldlM_append

def root : Stack → Except Error (Option Node)
  | [.finished root] => .ok root
  | _ => .error .malformed

end Stack

namespace Node

/-- The one document of a text; none where there is no text at all. -/
def ofTokens (tokens : List Token) : Except Error (Option Node) := do
  let stack ← Stack.run [.start] tokens
  stack.root

end Node

end ApneaScoring.Yaml
