import ApneaScoring.Proofs.Yaml.Scalars

namespace ApneaScoring.Yaml

/-- The node that is awaited would be a document, or the value of a key. -/
inductive Awaits : Stack → Prop
  | start (rest : Stack) : Awaits (.start :: rest)
  | value (entries : List (Node × Node)) (key : Node) (rest : Stack) :
      Awaits (.map entries (.atValue key) :: rest)

namespace Stack

theorem step_scalar {stack : Stack} (h : Awaits stack) (isPlain : Bool) (text : String) :
    stack.step (.scalar isPlain text) = .ok (deliver (.scalar isPlain text) stack) := by
  cases h <;> rfl

theorem step_mapStart {stack : Stack} (h : Awaits stack) :
    stack.step .mapStart = .ok (.map [] .ready :: stack) := by
  cases h <;> rfl

theorem step_blockEnd (entries : List (Node × Node)) (rest : Stack) :
    step (.map entries .ready :: rest) .blockEnd = .ok (deliver (.map entries.reverse) rest) := rfl

theorem run_key (entries : List (Node × Node)) (rest : Stack) (key : String) :
    run (.map entries .ready :: rest) [.key, .scalar true key, .value] =
      .ok (.map entries (.atValue (.scalar true key)) :: rest) := rfl

end Stack

/-- The node stands for the value, and names no anchor. -/
def Node.Means (n : Node) (d : Datum) : Prop :=
  ∃ tree, (∀ anchors, n.resolve none anchors = .ok (tree, anchors)) ∧ tree.toDatum = .ok d

theorem means_text {isPlain : Bool} {text : String}
    (h : Kind.ofScalar isPlain text = .text) : (Node.scalar isPlain text).Means (.text text) := by
  refine ⟨.scalar .text text, fun anchors => ?_, ?_⟩
  · rw [Node.resolve, Option.getD_none, h]
  · rw [Tree.toDatum]
    rfl

theorem means_float (x : Binary64) :
    (Node.scalar true (String.ofList (floatText x))).Means (.float x) := by
  refine ⟨.scalar .float (String.ofList (floatText x)), fun anchors => ?_, ?_⟩
  · rw [Node.resolve, Option.getD_none, Kind.ofScalar, if_pos rfl, String.toList_ofList,
      kind_floatText]
  · rw [Tree.toDatum]
    change ((floatValue (String.ofList (floatText x)).toList).map Datum.float).mapError _ = _
    rw [String.toList_ofList, floatValue_floatText]
    rfl

structure Field where
  key : String
  value : Datum
  tokens : List Token
  node : Node
  read : Datum

namespace Field

def entry (f : Field) : Datum × Datum :=
  (.text f.key, f.value)

def entryTokens (f : Field) : List Token :=
  .key :: .scalar true f.key :: .value :: f.tokens

def entryNode (f : Field) : Node × Node :=
  (.scalar true f.key, f.node)

def entryRead (f : Field) : Datum × Datum :=
  (.text f.key, f.read)

end Field

section

variable {fields : List Field}

theorem run_fields (h : ∀ f ∈ fields, ∀ stack, Awaits stack →
      stack.run f.tokens = .ok (Stack.deliver f.node stack))
    (entries : List (Node × Node)) (rest : Stack) :
    Stack.run (.map entries .ready :: rest) (fields.flatMap Field.entryTokens) =
      .ok (.map ((fields.map Field.entryNode).reverse ++ entries) .ready :: rest) := by
  induction fields generalizing entries with
  | nil => rfl
  | cons f fields ih =>
      rw [List.forall_mem_cons] at h
      have hsplit : (f :: fields).flatMap Field.entryTokens =
          [.key, .scalar true f.key, .value] ++
            (f.tokens ++ fields.flatMap Field.entryTokens) := rfl
      rw [hsplit, Stack.run_append, Stack.run_key]
      change Stack.run _ (f.tokens ++ _) = _
      rw [Stack.run_append, h.1 _ (.value _ _ _)]
      change Stack.run (.map (f.entryNode :: entries) .ready :: rest) _ = _
      rw [ih h.2]
      simp

theorem run_map {stack : Stack} (hstack : Awaits stack)
    (h : ∀ f ∈ fields, ∀ stack, Awaits stack →
      stack.run f.tokens = .ok (Stack.deliver f.node stack)) :
    stack.run (.mapStart :: (fields.flatMap Field.entryTokens ++ [.blockEnd])) =
      .ok (Stack.deliver (.map (fields.map Field.entryNode)) stack) := by
  have hrest := run_fields h [] stack
  have hsplit : Token.mapStart :: (fields.flatMap Field.entryTokens ++ [.blockEnd]) =
      [.mapStart] ++ (fields.flatMap Field.entryTokens ++ [.blockEnd]) := rfl
  have hstart : stack.run [.mapStart] = .ok (.map [] .ready :: stack) := by
    change (stack.step .mapStart >>= fun s => .ok s) = _
    rw [Stack.step_mapStart hstack]
    rfl
  rw [hsplit, Stack.run_append, hstart]
  change Stack.run _ (_ ++ _) = _
  rw [Stack.run_append, hrest]
  change (Stack.step (.map _ .ready :: stack) .blockEnd >>= fun s => .ok s) = _
  rw [Stack.step_blockEnd, List.append_nil, List.reverse_reverse]
  rfl

theorem sameKey_text (a b : String) : Datum.sameKey (.text a) (.text b) = (a == b) := by
  simp [Datum.sameKey, Datum.sameNumber, Datum.same]

theorem putEntry_append (done : List Field) (f : Field) (h : f.key ∉ done.map Field.key) :
    putEntry (done.map Field.entryRead) (.text f.key) f.read =
      (done ++ [f]).map Field.entryRead := by
  induction done with
  | nil => rfl
  | cons g done ih =>
      rw [List.map_cons, List.mem_cons, not_or] at h
      have hkey : Datum.sameKey (.text g.key) (.text f.key) = false := by
        rw [sameKey_text]
        simpa using Ne.symm h.1
      rw [List.map_cons, Field.entryRead, putEntry, hkey, if_neg Bool.false_ne_true, ih h.2]
      rfl

theorem distinctEntries_fields (h : (fields.map Field.key).Nodup) :
    distinctEntries (fields.map Field.entryRead) = fields.map Field.entryRead := by
  have hfold : ∀ done : List Field, ((done ++ fields).map Field.key).Nodup →
      (fields.map Field.entryRead).foldl (fun done entry => putEntry done entry.1 entry.2)
        (done.map Field.entryRead) = (done ++ fields).map Field.entryRead := by
    intro done hdone
    clear h
    induction fields generalizing done with
    | nil => simp
    | cons f fields ih =>
        have hkey : f.key ∉ done.map Field.key := by
          intro hmem
          rw [List.map_append, List.nodup_append] at hdone
          exact hdone.2.2 f.key hmem f.key (by simp) rfl
        rw [List.map_cons, List.foldl_cons]
        change List.foldl _ (putEntry _ (.text f.key) f.read) _ = _
        rw [putEntry_append done f hkey, ih]
        · simp
        · simpa using hdone
  exact hfold [] h

theorem resolve_key {key : String} (h : IsKey key) (anchors : Anchors) :
    (Node.scalar true key).resolve none anchors = .ok (.scalar .text key, anchors) := by
  rw [Node.resolve, Option.getD_none, Kind.ofScalar, if_pos rfl, h.kind]

/-- A field whose value is read is read as an entry, and merges nothing. -/
theorem exists_trees (hkeys : ∀ f ∈ fields, IsKey f.key)
    (h : ∀ f ∈ fields, f.node.Means f.read) :
    ∃ trees, (∀ anchors, Node.resolveEntries anchors (fields.map Field.entryNode) =
        .ok (trees, anchors)) ∧
      Tree.mergesMaps trees = true ∧
      Tree.toParts trees = ⟨.ok [], .ok (fields.map Field.entryRead)⟩ := by
  induction fields with
  | nil =>
      refine ⟨[], fun anchors => ?_, ?_, ?_⟩
      · rw [List.map_nil, Node.resolveEntries]
      · rw [Tree.mergesMaps]
      · rw [Tree.toParts]
        rfl
  | cons f fields ih =>
      rw [List.forall_mem_cons] at h hkeys
      obtain ⟨tree, hresolve, hvalue⟩ := h.1
      obtain ⟨trees, hresolves, hmerges, hparts⟩ := ih hkeys.2 h.2
      have hmerge : Tree.mergesMap (.scalar .text f.key, tree) = true := by
        rw [Tree.mergesMap]
        rfl
      have hpart : Tree.toPart (.scalar .text f.key, tree) =
          ⟨.ok [], .ok [f.entryRead]⟩ := by
        have hkey : (Tree.scalar .text f.key).toDatum = .ok (.text f.key) := by
          rw [Tree.toDatum]
          rfl
        rw [Tree.toPart, hkey, hvalue]
        rfl
      refine ⟨(.scalar .text f.key, tree) :: trees, fun anchors => ?_, ?_, ?_⟩
      · rw [List.map_cons, Field.entryNode, Node.resolveEntries, Node.resolveEntry,
          resolve_key hkeys.1]
        change (((f.node.resolve none anchors) >>= _) >>= _) = _
        rw [hresolve]
        change (Node.resolveEntries anchors (fields.map Field.entryNode) >>= _) = _
        rw [hresolves]
        rfl
      · rw [Tree.mergesMaps, hmerge, hmerges]
        rfl
      · rw [Tree.toParts, hpart, hparts]
        rfl

theorem means_map (hkeys : ∀ f ∈ fields, IsKey f.key) (hnodup : (fields.map Field.key).Nodup)
    (h : ∀ f ∈ fields, f.node.Means f.read) :
    (Node.map (fields.map Field.entryNode)).Means (.map (fields.map Field.entryRead)) := by
  obtain ⟨trees, hresolves, hmerges, hparts⟩ := exists_trees hkeys h
  refine ⟨.map .map trees, fun anchors => ?_, ?_⟩
  · rw [Node.resolve, hresolves]
    rfl
  · have hentries : Tree.toEntries trees = .ok (fields.map Field.entryRead) := by
      rw [Tree.toEntries, hmerges, if_pos rfl, hparts]
      change (Except.ok (distinctEntries ([] ++ _)) : Valued _) = _
      rw [List.nil_append, distinctEntries_fields hnodup]
    rw [Tree.toDatum, hentries]
    rfl

end

end ApneaScoring.Yaml
