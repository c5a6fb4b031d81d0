import MarketData.Proofs.Json.Reader

/-!
# The layout of written documents

The text of a document, compact or indented, is laid out the way the reader's lemmas expect: an
object is `objectText` and an array `arrayText`, with the line break of the next depth before
each member or element, a blank after each colon, and the line break of the object's own depth
before its closing brace or bracket (`spell_object`, `spell_array`). With no indent all of these
are empty; with an indent of spaces and tabs they are blanks (`blank_lineBreak`).
-/

namespace MarketData.Json

section Spelling

/-- The text of a document whose first line is at `depth` indents: compact with no indent. -/
def spell (indent : String) (depth : Nat) (d : Document) : Bytes :=
  Bytes.ofString (if indent.isEmpty then d.compact else d.indented indent depth)

theorem ofString_render (indent : String) (d : Document) : Bytes.ofString (d.render indent) = spell indent 0 d :=
  rfl

/-- What stands before a member or an element at `depth` indents, and before a closing brace or
bracket of an object or array at that depth. -/
def lineBreak (indent : String) (depth : Nat) : Bytes :=
  if indent.isEmpty then [] else Bytes.ofString (newline indent depth)

/-- What stands between a key's colon and its value. -/
def keyGap (indent : String) : Bytes := if indent.isEmpty then [] else [0x20]

/-- An indent made of spaces and tabs. -/
def IndentBlank (indent : String) : Prop := ∀ c ∈ indent.toList, c = ' ' ∨ c = '\t'

/-- The punctuation of documents, as bytes. -/
@[simp] theorem ofString_empty : Bytes.ofString "" = [] := by
  rw [Bytes.ofString_eq_encode]
  decide
@[simp] theorem ofString_colon : Bytes.ofString ":" = [0x3A] := by
  rw [Bytes.ofString_eq_encode]
  decide
@[simp] theorem ofString_colonSpace : Bytes.ofString ": " = [0x3A, 0x20] := by
  rw [Bytes.ofString_eq_encode]
  decide
@[simp] theorem ofString_comma : Bytes.ofString "," = [0x2C] := by
  rw [Bytes.ofString_eq_encode]
  decide
@[simp] theorem ofString_openBrace : Bytes.ofString "\x7b" = [0x7B] := by
  rw [Bytes.ofString_eq_encode]
  decide
@[simp] theorem ofString_closeBrace : Bytes.ofString "\x7d" = [0x7D] := by
  rw [Bytes.ofString_eq_encode]
  decide
@[simp] theorem ofString_openBracket : Bytes.ofString "[" = [0x5B] := by
  rw [Bytes.ofString_eq_encode]
  decide
@[simp] theorem ofString_closeBracket : Bytes.ofString "]" = [0x5D] := by
  rw [Bytes.ofString_eq_encode]
  decide
@[simp] theorem ofString_brackets : Bytes.ofString "[]" = [0x5B, 0x5D] := by
  rw [Bytes.ofString_eq_encode]
  decide

theorem blank_encode {cs : List Char} (blank : ∀ c ∈ cs, c = ' ' ∨ c = '\t' ∨ c = '\n') :
    Blank (Utf8.encode cs) := by
  intro b member
  obtain ⟨c, within, written⟩ := List.mem_flatMap.1 member
  rcases blank c within with rfl | rfl | rfl <;>
    · rw [Utf8.encodeChar_of_lt (by decide)] at written
      rw [List.mem_singleton.1 written]
      decide

theorem blank_lineBreak {indent : String} (blank : IndentBlank indent) (depth : Nat) :
    Blank (lineBreak indent depth) := by
  unfold lineBreak
  split
  · exact blank_nil
  · rw [newline, Bytes.ofString_eq_encode, String.toList_append, String.toList_join]
    refine blank_encode fun c within => ?_
    rcases List.mem_append.1 within with first | later
    · exact .inr (.inr (by simpa using first))
    · have inIndent : ¬depth = 0 ∧ c ∈ indent.toList := by simpa using later
      rcases blank c inIndent.2 with space | tab
      · exact .inl space
      · exact .inr (.inl tab)

theorem blank_keyGap (indent : String) : Blank (keyGap indent) := by
  unfold keyGap
  split
  · exact blank_nil
  · intro b member
    rw [List.mem_singleton.1 member]
    rfl

end Spelling


section Objects

variable {σ : Type}

theorem membersText_cons_cons (lead gap : Bytes) (w w' : Written σ) (ws : List (Written σ)) :
    membersText lead gap (w :: w' :: ws) = lead ++ memberText gap w ++ 0x2C :: membersText lead gap (w' :: ws) := by
  simp only [membersText, laterMembers, List.flatMap_cons, List.append_assoc, List.cons_append]

theorem ofString_compactMembers {ws : List (Written σ)} {ms : List (String × Document)}
    (texts : List.Forall₂ (fun w m => w.key = m.1 ∧ w.text = Bytes.ofString m.2.compact) ws ms) :
    Bytes.ofString (compactMembers ms) = membersText [] [] ws := by
  induction texts with
  | nil => simp [compactMembers, membersText]
  | @cons w m ws ms first rest inductionHypothesis =>
    obtain ⟨key, text⟩ := first
    cases rest with
    | nil =>
      simp [compactMembers, membersText, laterMembers, memberText, key, text]
    | @cons w' m' ws' ms' _ _ =>
      rw [membersText_cons_cons, ← inductionHypothesis]
      simp [compactMembers, memberText, key, text]

theorem ofString_indentedMembers (indent : String) (depth : Nat) {ws : List (Written σ)}
    {ms : List (String × Document)}
    (texts : List.Forall₂ (fun w m => w.key = m.1 ∧ w.text = Bytes.ofString (m.2.indented indent depth)) ws ms) :
    Bytes.ofString (indentedMembers indent depth ms) = membersText (Bytes.ofString (newline indent depth)) [0x20] ws := by
  induction texts with
  | nil => simp [indentedMembers, membersText]
  | @cons w m ws ms first rest inductionHypothesis =>
    obtain ⟨key, text⟩ := first
    cases rest with
    | nil =>
      simp [indentedMembers, membersText, laterMembers, memberText, key, text]
    | @cons w' m' ws' ms' _ _ =>
      rw [membersText_cons_cons, ← inductionHypothesis]
      simp [indentedMembers, memberText, key, text]

/-- A written object is laid out as `objectText`, its members after line breaks one depth
deeper. -/
theorem spell_object (indent : String) (depth : Nat) {ws : List (Written σ)} {ms : List (String × Document)}
    (texts : List.Forall₂ (fun w m => w.key = m.1 ∧ w.text = spell indent (depth + 1) m.2) ws ms)
    (nonempty : ms ≠ []) :
    spell indent depth (.object ms) =
      objectText (lineBreak indent (depth + 1)) (keyGap indent) (lineBreak indent depth) ws := by
  unfold spell lineBreak keyGap
  split
  · rename_i compact
    have members := ofString_compactMembers (texts.imp fun _ _ same => by simpa [spell, compact] using same)
    simp [Document.compact, objectText, members]
  · rename_i indented
    obtain ⟨m, ms, rfl⟩ := List.exists_cons_of_ne_nil nonempty
    have members := ofString_indentedMembers indent (depth + 1)
      (texts.imp fun _ _ same => by simpa [spell, indented] using same)
    simp [Document.indented, objectText, members]

end Objects


section Arrays

theorem ofString_compactItems {x : Bytes × Level} {d : Document} (first : x.1 = Bytes.ofString d.compact)
    {xs : List (Bytes × Level)} {ds : List Document}
    (texts : List.Forall₂ (fun x d => x.1 = Bytes.ofString d.compact) xs ds) :
    Bytes.ofString (compactItems (d :: ds)) = x.1 ++ laterItems [] xs := by
  induction texts generalizing x d with
  | nil => simp [compactItems, laterItems, first]
  | @cons x' d' xs ds next _ inductionHypothesis =>
    rw [compactItems.eq_3 _ _ (List.cons_ne_nil _ _), Bytes.ofString_append, Bytes.ofString_append,
      inductionHypothesis next]
    simp [laterItems, first]

theorem ofString_indentedItems (indent : String) (depth : Nat) {x : Bytes × Level} {d : Document}
    (first : x.1 = Bytes.ofString (d.indented indent depth)) {xs : List (Bytes × Level)} {ds : List Document}
    (texts : List.Forall₂ (fun x d => x.1 = Bytes.ofString (d.indented indent depth)) xs ds) :
    Bytes.ofString (indentedItems indent depth (d :: ds)) =
      Bytes.ofString (newline indent depth) ++ x.1 ++ laterItems (Bytes.ofString (newline indent depth)) xs := by
  induction texts generalizing x d with
  | nil => simp [indentedItems, laterItems, first]
  | @cons x' d' xs ds next _ inductionHypothesis =>
    rw [indentedItems.eq_3 _ _ _ _ (List.cons_ne_nil _ _), Bytes.ofString_append, Bytes.ofString_append,
      Bytes.ofString_append, inductionHypothesis next]
    simp [laterItems, first]

theorem spell_array_nil (indent : String) (depth : Nat) :
    spell indent depth (.array []) = arrayText (lineBreak indent (depth + 1)) [] [] := by
  unfold spell
  split <;> simp [Document.compact, Document.indented, compactItems, arrayText]

/-- A written side of levels is laid out as `arrayText`, its levels after line breaks one depth
deeper. -/
theorem spell_array (indent : String) (depth : Nat) {x : Bytes × Level} {d : Document}
    {xs : List (Bytes × Level)} {ds : List Document}
    (texts : List.Forall₂ (fun x d => x.1 = spell indent (depth + 1) d) (x :: xs) (d :: ds)) :
    spell indent depth (.array (d :: ds)) =
      arrayText (lineBreak indent (depth + 1)) (lineBreak indent depth) (x :: xs) := by
  obtain ⟨first, rest⟩ := List.forall₂_cons.1 texts
  unfold spell lineBreak
  split
  · rename_i compact
    have items := ofString_compactItems (by simpa [spell, compact] using first)
      (rest.imp fun _ _ same => by simpa [spell, compact] using same)
    simp [Document.compact, arrayText, items]
  · rename_i indented
    have items := ofString_indentedItems indent (depth + 1) (by simpa [spell, indented] using first)
      (rest.imp fun _ _ same => by simpa [spell, indented] using same)
    simp [Document.indented, arrayText, items]

end Arrays

end MarketData.Json
