import MarketData.Proofs.Except
import MarketData.Schema.Snapshot

/-!
# Block scalars whose first line starts with a tab

A block scalar without an indentation hint takes its indentation from its first line: the
scanner skips that line's spaces, and a tab met before any other character is refused, since
YAML indents with spaces only. Once the indentation is known, only that many spaces are
skipped, and the spaces of a line indented deeper belong to the text.

The writer gives a literal block a hint only when the text starts with a space or a line
break. A text that starts with a tab gets none, so its first line is the indentation, then
the tab: the reader refuses every such block. A snapshot holding a table name like that is
written but does not load.
-/

namespace MarketData.Yaml

namespace Cursor

theorem skipN_spaces : ∀ (n : Nat) (c : Cursor) {rest : List Char},
    c.rest = List.replicate n ' ' ++ rest →
      (c.skipN n).rest = rest ∧ (c.skipN n).mark.column = c.mark.column + n
  | 0, c, rest, spaces => by simp_all [skipN]
  | n + 1, c, rest, spaces => by
    have skipped : c.skip.rest = List.replicate n ' ' ++ rest := by
      simp [skip, spaces, List.replicate_succ]
    obtain ⟨landed, column⟩ := skipN_spaces n c.skip skipped
    refine ⟨landed, ?_⟩
    rw [skipN, column]
    simp [skip, spaces, List.replicate_succ]
    omega

theorem skipWhile_at_break (p : Char → Bool) {c : Cursor} (stop : c.rest.head?.all isBreak = true) :
    c.skipWhile p = c := by
  rw [skipWhile]
  split <;> simp_all

end Cursor

section Indentation

variable (indent : Nat)

theorem skipIndent_stop {c : Cursor} (fuel : Nat)
    (stop : (c.is 0 ' ' && (indent = 0 || c.mark.column < indent)) = false) :
    blockBreaks.skipIndent indent c fuel = c := by
  cases fuel <;> simp [blockBreaks.skipIndent, stop]

/-- Spaces are skipped one by one while the column stays within the indentation, or freely
while the indentation is still to be found. -/
theorem skipIndent_spaces : ∀ (n : Nat) (c : Cursor) {rest : List Char} (fuel : Nat),
    c.rest = List.replicate n ' ' ++ rest → (indent = 0 ∨ c.mark.column + n ≤ indent) →
      blockBreaks.skipIndent indent c (fuel + n) = blockBreaks.skipIndent indent (c.skipN n) fuel
  | 0, c, rest, fuel, _, _ => rfl
  | n + 1, c, rest, fuel, spaces, within => by
    have skipped : c.skip.rest = List.replicate n ' ' ++ rest := by
      simp [Cursor.skip, spaces, List.replicate_succ]
    have column : c.skip.mark.column = c.mark.column + 1 := by
      simp [Cursor.skip, spaces, List.replicate_succ]
    have space : (c.is 0 ' ' && (indent = 0 || c.mark.column < indent)) = true := by
      simp [Cursor.is, Cursor.at?, spaces, List.replicate_succ]
      omega
    rw [show fuel + (n + 1) = (fuel + n) + 1 by omega, blockBreaks.skipIndent, if_pos space,
      skipIndent_spaces n c.skip fuel skipped (by omega)]
    rfl

end Indentation

theorem blockBreaks_tab (parentIndent : Int) (breaks : List Char) (deepest : Nat) {c : Cursor}
    {n : Nat} {rest : List Char} (tabbed : c.rest = List.replicate n ' ' ++ '\t' :: rest) (fuel : Nat) :
    blockBreaks parentIndent 0 breaks deepest c (fuel + 1) =
      malformed "found a tab character where an indentation space is expected" := by
  obtain ⟨landed, -⟩ := Cursor.skipN_spaces n c tabbed
  have skipped : blockBreaks.skipIndent 0 c (c.rest.length + 1) = c.skipN n := by
    have total : c.rest.length + 1 = (rest.length + 2) + n := by simp [tabbed]; omega
    rw [total, skipIndent_spaces 0 n c (rest.length + 2) tabbed (.inl rfl),
      skipIndent_stop 0 _ (by simp [Cursor.is, Cursor.at?, landed])]
  simp [blockBreaks, skipped, Cursor.is, Cursor.at?, landed, malformed]

/-- Once a block's indentation is known, a line indented deeper has only that many spaces
skipped: the cursor stops at the indentation with the line's extra spaces still to read. -/
theorem blockBreaks_deeper (parentIndent : Int) {indent : Nat} (known : indent ≠ 0)
    (breaks : List Char) (deepest : Nat) {c : Cursor} (lineStart : c.mark.column = 0) {k : Nat}
    {d : Char} {rest : List Char} (deeper : c.rest = List.replicate (indent + k) ' ' ++ d :: rest)
    (solid : isBreak d = false) (fuel : Nat) :
    blockBreaks parentIndent indent breaks deepest c (fuel + 1) = .ok (indent, breaks, c.skipN indent) := by
  have spaces : c.rest = List.replicate indent ' ' ++ (List.replicate k ' ' ++ d :: rest) := by
    rw [deeper, List.replicate_add, List.append_assoc]
  obtain ⟨landed, column⟩ := Cursor.skipN_spaces indent c spaces
  have skipped : blockBreaks.skipIndent indent c (c.rest.length + 1) = c.skipN indent := by
    have total : c.rest.length + 1 = (k + rest.length + 2) + indent := by simp [deeper]; omega
    rw [total, skipIndent_spaces indent indent c _ spaces (.inr (by omega)),
      skipIndent_stop indent _ (by simp [column, lineStart, known])]
  -- the line goes on past the indentation: with more spaces, or with the text itself
  have unbroken : (c.skipN indent).breakAt 0 = false := by
    cases k with
    | zero => simp [Cursor.breakAt, Cursor.at?, landed, solid]
    | succ k => simp [Cursor.breakAt, Cursor.at?, landed, List.replicate_succ, isBreak]
  simp [blockBreaks, skipped, column, lineStart, known, unbroken]

theorem chomping_cases (s : String) : chomping s = "-" ∨ chomping s = "+" ∨ chomping s = "" := by
  unfold chomping
  split
  · simp
  · split
    · simp
    · split
      · simp
      · split <;> simp

/-- The literal block of a text that starts with a tab: a header with no indentation hint, then
the first line, indented, with the tab right after the indentation. -/
theorem literal_toList_of_tab (indent : Nat) {s : String} {rest : List Char}
    (tabLed : s.toList = '\t' :: rest) :
    (literal indent s).toList =
      '|' :: (chomping s).toList ++
        '\n' :: (List.replicate indent ' ' ++ '\t' :: quotedBody indent false false rest) := by
  simp [literal, tabLed, quotedBody, isBreak]

/-- The literal block written for a text that starts with a tab never reads back, whatever its
indentation and whatever follows it: the reader finds the tab while it is still looking for
the block's indentation. -/
theorem scanBlock_literal_tab (parentIndent : Int) (indent : Nat) {s : String} {rest : List Char}
    (tabLed : s.toList = '\t' :: rest) {c : Cursor} {after : List Char}
    (written : c.rest = (literal indent s).toList ++ after) :
    scanBlock true parentIndent c =
      malformed "found a tab character where an indentation space is expected" := by
  rw [literal_toList_of_tab indent tabLed] at written
  -- each chomping indicator is read past, then the header's line break, to the first line
  rcases chomping_cases s with chomp | chomp | chomp <;> rw [chomp] at written <;>
    simp [scanBlock, Cursor.skip, written, Cursor.is, Cursor.at?, Cursor.skipWhile_at_break,
      Cursor.breakzAt, Cursor.breakAt, Cursor.skipLine, Cursor.breakLength, isBreak] <;>
    rw [blockBreaks_tab parentIndent [] 0 rfl] <;> rfl

theorem scanBlock_literal_tab_name :
    "\ta\nb".toList = ['\t', 'a', '\n', 'b'] ∧
      scanBlock true 2 ⟨(literal 6 "\ta\nb").toList, ⟨17, 1, 8⟩, 0⟩ =
        malformed "found a tab character where an indentation space is expected" :=
  ⟨by decide, @scanBlock_literal_tab 2 6 "\ta\nb" ['a', '\n', 'b'] (by decide) _ [] (by simp)⟩

end MarketData.Yaml

namespace MarketData.Schema

open Yaml

/-- A valid catalog whose only table is named by a text that starts with a tab and spans two
lines: the name is written as a literal block, and the snapshot does not load. -/
theorem snapshot_tab_led_name_unloadable :
    Catalog.validate ⟨[⟨"\ta\nb", "current", [], []⟩]⟩ = .ok () ∧
      Catalog.snapshot ⟨[⟨"\ta\nb", "current", [], []⟩]⟩ =
        "entities:\n  - name: |-\n      \ta\n      b\n    generation: current\n    fields: []\n" ∧
      Catalog.load (Catalog.snapshot ⟨[⟨"\ta\nb", "current", [], []⟩]⟩) =
        .error (.plain "failed to parse field id snapshot") := by
  have literalName : styleOf "\ta\nb" = .literal := by decide
  have plainGeneration : styleOf "current" = .plain := by decide
  have sortedAlready : Catalog.sorted ⟨[⟨"\ta\nb", "current", [], []⟩]⟩ =
      ⟨[⟨"\ta\nb", "current", [], []⟩]⟩ := rfl
  have written : Catalog.snapshot ⟨[⟨"\ta\nb", "current", [], []⟩]⟩ =
      "entities:\n  - name: |-\n      \ta\n      b\n    generation: current\n    fields: []\n" := by
    simp only [Catalog.snapshot, sortedAlready, List.foldl_cons, List.foldl_nil, Table.write,
      Sheet.text, literalName, plainGeneration]
    decide
  refine ⟨by decide, written, ?_⟩
  rw [written]
  decide +kernel

end MarketData.Schema
