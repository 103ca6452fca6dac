import ApneaScoring.Proofs.Yaml.Alphabet
import ApneaScoring.Proofs.Yaml.Fields

namespace ApneaScoring.Yaml

open Cursor

theorem IsKey.fitsLine {key : String} (h : IsKey key) : FitsLine key.toList := by
  apply fitsLine_of_word
  intro c hc
  obtain ⟨hascii, -, -, hcolon, -⟩ := isKeyChar_iff.mp (h.mem c hc)
  exact ⟨hcolon, isGap_of_isKeyChar (h.mem c hc), hascii⟩

theorem IsKey.isPlain {key : String} (h : IsKey key) : isPlain key.toList = true := by
  obtain ⟨hmem, hinner, hlast⟩ := h.fitsLine
  obtain ⟨c, cs, hcons, hc⟩ := h.exists_cons
  obtain ⟨-, hspace, hsign, hcolon, hquestion, hminus, hpoint⟩ := isKeyChar_iff.mp hc
  have hmark (mark : Char) (hmark : c ≠ mark) :
      beginsWithSign.startsWith3 mark key.toList = false := by
    simp [beginsWithSign.startsWith3, hcons, hmark]
  have hbegins : beginsWithSign key.toList = false := by
    rw [hcons] at hmark ⊢
    simp [beginsWithSign, hsign, hminus, hquestion, hcolon, hmark '-' hminus, hmark '.' hpoint]
  have hhead : key.toList.head? ≠ some ' ' := by simpa [hcons] using hspace
  have hfits : fitsPlain key.toList = true := by
    simp only [fitsPlain, hbegins, hinner, hlast, List.all_eq_true.mpr hmem, bne_iff_ne.mpr hhead,
      Bool.not_false, Bool.and_self]
  rw [Yaml.isPlain, h.kind, hfits]
  rfl

theorem keyText_eq {key : String} (h : IsKey key) : keyText (.text key) = key.toList := by
  change writeText 0 0 key.toList = key.toList
  rw [writeText, h.isPlain, if_pos rfl,
    folded_word fun c hc => isGap_of_isKeyChar (h.mem c hc)]

theorem atGap_writeValue (column keyLength : Nat) (value : Datum) (tail : List Char) :
    atGap (writeValue column keyLength value ++ tail) = true := by
  cases value with
  | map entries =>
      rw [writeValue]
      split <;> rfl
  | list items =>
      rw [writeValue]
      split <;> rfl
  | _ => rfl

/-- In a block at the column the field is written in characters of documents and scanned, and
what it is scanned as is read. -/
structure Field.Renders (f : Field) (column : Nat) : Prop where
  isKey : IsKey f.key
  isWritten : ∀ keyLength, ∀ c ∈ writeValue column keyLength f.value, isWritten c = true
  yields : ∀ keyLength outer tail after, Resumes column tail →
    Yields (inBlock tail 0 (column :: outer) true).skip after →
      Yields (inBlock (writeValue column keyLength f.value ++ tail) (column + keyLength + 1)
        (column :: outer) false).skip (f.tokens ++ after)
  run : ∀ stack, Awaits stack → stack.run f.tokens = .ok (Stack.deliver f.node stack)
  means : f.node.Means f.read

def Field.ofText (column : Nat) (key : String) (cs : List Char) : Field :=
  ⟨key, .text (String.ofList cs),
    [.scalar (isPlain cs) (String.ofList (textFor (column + 2) cs))],
    .scalar (isPlain cs) (String.ofList (textFor (column + 2) cs)),
    .text (String.ofList (textFor (column + 2) cs))⟩

def Field.ofFloat (key : String) (x : Binary64) : Field :=
  ⟨key, .float x, [.scalar true (String.ofList (floatText x))],
    .scalar true (String.ofList (floatText x)), .float x⟩

def Field.ofFields (key : String) (fields : List Field) : Field :=
  ⟨key, .map (fields.map Field.entry),
    .mapStart :: (fields.flatMap Field.entryTokens ++ [.blockEnd]),
    .map (fields.map Field.entryNode), .map (fields.map Field.entryRead)⟩

section

variable {key : String} {column : Nat}

theorem renders_ofText (h : IsKey key) (column : Nat) (cs : List Char) :
    (Field.ofText column key cs).Renders column where
  isKey := h
  isWritten keyLength := by
    change ∀ c ∈ ' ' :: writeText (column + 2) (column + keyLength + 2)
      (String.ofList cs).toList ++ ['\n'], isWritten c = true
    rw [List.forall_mem_append, List.forall_mem_cons]
    exact ⟨⟨rfl, isWritten_writeText _ _ _⟩, by simp [isWritten]⟩
  yields keyLength outer tail after htail hafter := by
    change Yields (inBlock ((' ' :: writeText (column + 2) (column + keyLength + 2)
      (String.ofList cs).toList ++ ['\n']) ++ tail) _ _ _).skip _
    rw [String.toList_ofList, List.append_assoc, List.cons_append, List.singleton_append,
      skip_blank (exists_writeText_cons _ _ _ _)]
    exact hafter.text htail (by omega) (by omega) cs
  run stack hstack := by
    change (stack.step _ >>= fun s => .ok s) = _
    rw [Stack.step_scalar hstack]
    rfl
  means := by
    apply means_text
    rw [Kind.ofScalar]
    split
    · next hplain =>
        have htext : textFor (column + 2) cs = cs := by simp [textFor, hplain]
        simp only [isPlain, Bool.and_eq_true, decide_eq_true_eq] at hplain
        rw [String.toList_ofList, htext, hplain.1]
    · rfl

theorem renders_ofFloat (h : IsKey key) (column : Nat) (x : Binary64) :
    (Field.ofFloat key x).Renders column where
  isKey := h
  isWritten keyLength := by
    change ∀ c ∈ ' ' :: floatText x ++ ['\n'], isWritten c = true
    rw [List.forall_mem_append, List.forall_mem_cons]
    exact ⟨⟨rfl, fun c hc => isWritten_of_isPlainAscii (mem_floatText hc).2.2⟩,
      by simp [isWritten]⟩
  yields keyLength outer tail after htail hafter := by
    change Yields (inBlock ((' ' :: floatText x ++ ['\n']) ++ tail) _ _ _).skip _
    rw [List.append_assoc, List.cons_append, List.singleton_append,
      skip_blank (exists_floatText_cons _ _)]
    exact hafter.float htail (by omega) x
  run stack hstack := by
    change (stack.step _ >>= fun s => .ok s) = _
    rw [Stack.step_scalar hstack]
    rfl
  means := means_float x

variable {bound : Nat} {outer : List Nat} {fields : List Field} {tail : List Char}
  {after : List Token}

theorem writeEntries_cons {f : Field} (h : IsKey f.key) (lead : List Char) :
    writeEntries lead column ((f :: fields).map Field.entry) =
      lead ++ (f.key.toList ++ ':' :: (writeValue column f.key.toList.length f.value ++
        writeEntries (spaces column) column (fields.map Field.entry))) := by
  rw [List.map_cons, writeEntries, Field.entry, writeEntry, keyText_eq h]
  simp

theorem resumes_entries (h : ∀ f ∈ fields, IsKey f.key) (htail : Resumes column tail) :
    Resumes column (writeEntries (spaces column) column (fields.map Field.entry) ++ tail) := by
  cases fields with
  | nil =>
      rw [List.map_nil, writeEntries]
      exact htail
  | cons f fields =>
      rw [List.forall_mem_cons] at h
      obtain ⟨c, cs, hcons, hc⟩ := h.1.exists_cons
      rw [writeEntries_cons h.1, hcons, List.append_assoc]
      exact .key (Nat.le_refl column) hc _

theorem Yields.resumes (h : Yields (inBlock tail 0 outer true).skip after)
    (htail : Resumes bound tail) (hdeeper : tail = [] ∨ bound < column) :
    Yields (inBlock tail 0 (column :: outer) true).skip (.blockEnd :: after) := by
  cases htail with
  | nothing => exact h.blockEnd (.inl rfl)
  | @key n hle c hc rest =>
      have hgap := isGap_of_isKeyChar hc
      have hsign := (ne_of_isKeyChar hc).1
      have hskip (indents : List Nat) : (inBlock (spaces n ++ c :: rest) 0 indents true).skip =
          inBlock (c :: rest) n indents true := by
        rw [spaces, skip_word hgap hsign, Nat.zero_add]
      rw [hskip] at h ⊢
      have hbound : bound < column := hdeeper.resolve_left (by simp)
      exact h.blockEnd (.inr (by omega))

theorem skip_key (h : IsKey key) (column : Nat) (rest : List Char) (indents : List Nat) :
    (inBlock (spaces column ++ (key.toList ++ rest)) 0 indents true).skip =
      inBlock (key.toList ++ rest) column indents true := by
  obtain ⟨c, cs, hcons, hc⟩ := h.exists_cons
  have hsign := (ne_of_isKeyChar hc).1
  rw [hcons, List.cons_append, spaces, skip_word (isGap_of_isKeyChar hc) hsign, Nat.zero_add]

theorem Yields.entry {f : Field} {indents : List Nat} {opening : List Token}
    (h : Yields (inBlock tail 0 (column :: outer) true).skip after) (hf : f.Renders column)
    (htail : Resumes column tail) (hindents : ∀ indent ∈ indents.head?, indent ≤ column)
    (hopen : ∀ cs, (inBlock cs column indents true).openBlock .mapStart =
      (opening, inBlock cs column (column :: outer) true)) :
    Yields (inBlock (f.key.toList ++ ':' :: (writeValue column f.key.toList.length f.value ++ tail))
      column indents true) (opening ++ (f.entryTokens ++ after)) := by
  have hvalue := hf.yields f.key.toList.length outer tail after htail h
  have hlexeme := lexeme_key hf.isKey (atGap_writeValue column f.key.toList.length f.value tail)
    (hopen _)
  have hkey := hvalue.lexeme (by simp) hindents hlexeme (by simp [inBlock]; omega)
  rwa [List.append_assoc] at hkey

theorem Yields.entries (h : Yields (inBlock tail 0 (column :: outer) true).skip after)
    (hfields : ∀ f ∈ fields, f.Renders column) (htail : Resumes column tail) :
    Yields (inBlock (writeEntries (spaces column) column (fields.map Field.entry) ++ tail) 0
      (column :: outer) true).skip (fields.flatMap Field.entryTokens ++ after) := by
  induction fields with
  | nil =>
      rw [List.map_nil, writeEntries]
      exact h
  | cons f fields ih =>
      rw [List.forall_mem_cons] at hfields
      have hrest := resumes_entries (fun f hf => (hfields.2 f hf).isKey) htail
      have hentry : Yields (inBlock _ column (column :: outer) true) _ :=
        (ih hfields.2).entry hfields.1 hrest (by simp) fun cs => openBlock_open .mapStart
      rw [writeEntries_cons hfields.1.isKey, List.append_assoc, List.append_assoc, List.cons_append,
        List.append_assoc, skip_key hfields.1.isKey, List.flatMap_cons, List.append_assoc]
      exact hentry

theorem Yields.block (h : Yields (inBlock tail 0 outer true).skip after)
    (hfields : ∀ f ∈ fields, f.Renders column) (hne : fields ≠ []) (htail : Resumes bound tail)
    (hdeeper : tail = [] ∨ bound < column) (houter : ∀ indent ∈ outer.head?, indent < column) :
    Yields (inBlock (writeEntries [] column (fields.map Field.entry) ++ tail) column outer true)
      (.mapStart :: (fields.flatMap Field.entryTokens ++ [.blockEnd]) ++ after) := by
  obtain ⟨f, rest, rfl⟩ := List.exists_cons_of_ne_nil hne
  rw [List.forall_mem_cons] at hfields
  have hresumes : Resumes column tail := by
    rcases hdeeper with rfl | hlt
    · exact .nothing
    · exact htail.mono (Nat.le_of_lt hlt)
  have hend := h.resumes htail hdeeper
  have hrest := resumes_entries (fun f hf => (hfields.2 f hf).isKey) hresumes
  have hentry := (hend.entries hfields.2 hresumes).entry hfields.1 hrest
    (fun indent hmem => Nat.le_of_lt (houter indent hmem))
    fun cs => openBlock_deeper houter .mapStart
  rw [writeEntries_cons hfields.1.isKey, List.nil_append, List.append_assoc, List.cons_append,
    List.append_assoc]
  simpa using hentry

theorem writeValue_fields (hkeys : ∀ f ∈ fields, IsKey f.key) (hne : fields ≠ [])
    (keyLength : Nat) : writeValue column keyLength (.map (fields.map Field.entry)) =
      '\n' :: (spaces (column + 2) ++ writeEntries [] (column + 2) (fields.map Field.entry)) := by
  obtain ⟨f, rest, rfl⟩ := List.exists_cons_of_ne_nil hne
  rw [List.forall_mem_cons] at hkeys
  rw [writeValue, if_neg (by simp), writeEntries_cons hkeys.1, writeEntries_cons hkeys.1,
    List.nil_append]

theorem isWritten_entries (hfields : ∀ f ∈ fields, f.Renders column) (lead : List Char)
    (hlead : ∀ c ∈ lead, isWritten c = true) :
    ∀ c ∈ writeEntries lead column (fields.map Field.entry), isWritten c = true := by
  induction fields generalizing lead with
  | nil => simp [writeEntries]
  | cons f fields ih =>
      rw [List.forall_mem_cons] at hfields
      have hkey : ∀ c ∈ f.key.toList, isWritten c = true := fun c hc =>
        isWritten_of_isPlainAscii (hfields.1.isKey.fitsLine.mem c hc)
      rw [writeEntries_cons hfields.1.isKey]
      simp only [List.forall_mem_append, List.forall_mem_cons]
      exact ⟨hlead, hkey, rfl, hfields.1.isWritten _, ih hfields.2 _ (isWritten_spaces column)⟩

theorem renders_ofFields (h : IsKey key) (hfields : ∀ f ∈ fields, f.Renders (column + 2))
    (hne : fields ≠ []) (hnodup : (fields.map Field.key).Nodup) :
    (Field.ofFields key fields).Renders column where
  isKey := h
  isWritten keyLength := by
    change ∀ c ∈ writeValue column keyLength (.map (fields.map Field.entry)), isWritten c = true
    rw [writeValue_fields (fun f hf => (hfields f hf).isKey) hne, List.forall_mem_cons,
      List.forall_mem_append]
    exact ⟨rfl, isWritten_spaces _, isWritten_entries hfields [] (by simp)⟩
  yields keyLength outer tail after htail hafter := by
    have hblock := hafter.block hfields hne htail (.inr (by omega)) (by simp)
    change Yields (inBlock (writeValue column keyLength (.map (fields.map Field.entry)) ++ tail)
      _ _ _).skip (.mapStart :: (fields.flatMap Field.entryTokens ++ [.blockEnd]) ++ after)
    rw [writeValue_fields (fun f hf => (hfields f hf).isKey) hne, List.cons_append, skip_line,
      List.append_assoc]
    obtain ⟨f, rest, rfl⟩ := List.exists_cons_of_ne_nil hne
    rw [List.forall_mem_cons] at hfields
    rw [writeEntries_cons hfields.1.isKey, List.nil_append, List.append_assoc] at hblock ⊢
    rw [skip_key hfields.1.isKey]
    exact hblock
  run stack hstack := run_map hstack fun f hf => (hfields f hf).run
  means := means_map (fun f hf => (hfields f hf).isKey) hnodup fun f hf => (hfields f hf).means

end

theorem directives_read_key {key : String} (h : IsKey key) (rest : List Char) :
    Directives.read (key.toList ++ rest) = .ok (.none, key.toList ++ rest) := by
  obtain ⟨c, cs, hcons, hc⟩ := h.exists_cons
  have hgap := isGap_of_isKeyChar hc
  have hspace : c ≠ ' ' := (isKeyChar_iff.mp hc).2.1
  obtain ⟨hcomment, hdirective⟩ := ne_of_isKeyChar hc
  have hskipped : Directives.skipped true false (c :: (cs ++ rest)) =
      (true, c :: (cs ++ rest)) := by
    simp [Directives.skipped, isBreak_of_isGap hgap, hspace, hcomment]
  rw [hcons, List.cons_append]
  unfold Directives.read
  rw [hskipped]
  split
  · next heq => exact absurd (List.cons.inj (Prod.mk.inj heq).2).1 hdirective
  · rfl

theorem ofText_key {key : String} (h : IsKey key) (rest : List Char) :
    Cursor.ofText (key.toList ++ rest) = .ok (inBlock (key.toList ++ rest) 0 [] true) := by
  obtain ⟨c, cs, hcons, hc⟩ := h.exists_cons
  have hmark : c ≠ '\uFEFF' := by
    rintro rfl
    exact absurd (isKeyChar_iff.mp hc).1 (by decide)
  have hread := directives_read_key h rest
  unfold Cursor.ofText
  rw [hcons, List.cons_append] at hread ⊢
  split
  · next heq => exact absurd (List.cons.inj heq).1 hmark
  · change (Directives.read (c :: (cs ++ rest)) >>= _) = _
    rw [hread]
    rfl

section

variable {fields : List Field}

theorem ofText_fields (hfields : ∀ f ∈ fields, f.Renders 0) (hne : fields ≠ []) :
    Token.ofText (writeEntries [] 0 (fields.map Field.entry)) =
      .mapStart :: (fields.flatMap Field.entryTokens ++ [.blockEnd]) ++ [.textEnd] := by
  have hwritten := isWritten_entries hfields [] (by simp)
  have hallowed : (writeEntries [] 0 (fields.map Field.entry)).all isAllowed = true :=
    List.all_eq_true.mpr fun c hc => isAllowed_of_isWritten (hwritten c hc)
  have hend : Yields (inBlock [] 0 [] true).skip [.textEnd] := yields_end
  have hnothing : Resumes 0 [] := .nothing
  have hblock := hend.block hfields hne hnothing (.inl rfl) (by simp)
  rw [List.append_nil] at hblock
  obtain ⟨f, rest, rfl⟩ := List.exists_cons_of_ne_nil hne
  have hkey := (hfields f List.mem_cons_self).isKey
  rw [Token.ofText, hallowed, if_pos rfl, unifyBreaks_eq_self hwritten]
  rw [writeEntries_cons hkey, List.nil_append] at hblock ⊢
  rw [ofText_key hkey]
  exact hblock _ (skip_key hkey 0 _ [])

/-- A map of fields is written as a document that is read as what is read of its fields. -/
theorem read_write (hfields : ∀ f ∈ fields, f.Renders 0) (hne : fields ≠ [])
    (hnodup : (fields.map Field.key).Nodup) :
    read (write (.map (fields.map Field.entry))) = .ok (.map (fields.map Field.entryRead)) := by
  have htext : (write (.map (fields.map Field.entry))).toList =
      writeEntries [] 0 (fields.map Field.entry) := by
    have hentries : (fields.map Field.entry).isEmpty = false := by simpa using hne
    rw [write, String.toList_ofList, writeAt, hentries, if_neg Bool.false_ne_true]
  obtain ⟨tree, hresolve, hvalue⟩ := means_map (fun f hf => (hfields f hf).isKey) hnodup
    fun f hf => (hfields f hf).means
  have hrun := run_map (.start []) fun f hf => (hfields f hf).run
  have hnode : Node.ofTokens (.mapStart :: (fields.flatMap Field.entryTokens ++ [.blockEnd]) ++
      [.textEnd]) = .ok (some (.map (fields.map Field.entryNode))) := by
    unfold Node.ofTokens
    rw [Stack.run_append, hrun]
    rfl
  unfold read
  rw [htext, ofText_fields hfields hne, hnode]
  change (((Node.map (fields.map Field.entryNode)).toTree >>= _) : Except Error Datum) = _
  rw [Node.toTree, hresolve]
  change tree.toDatum.mapError _ = _
  rw [hvalue]
  rfl

end

end ApneaScoring.Yaml
