import MarketData.Proofs.Text.Pieces
import MarketData.Text.Case

/-!
# Upper-casing settles

Upper-casing maps each character at most once: the image of every run of the uppercase table
lies in one range of code points that are neither white space, nor ASCII other than the capital
letters, nor surrogates, and no run of the table covers any of it (`upperRuns_settle`, checked
run against run). So a character is either left as it is or mapped onto a code point that
upper-casing leaves alone (`toUpperChar_eq_or_settled`), from which

* upper-casing is idempotent, on characters and on bytes (`Bytes.toUpper_toUpper`),
* it never makes white space (`isBlank_toUpperChar`), and
* it never makes punctuation that was not there (`toUpperChar_eq_of_loud`).
-/

namespace MarketData

namespace CaseRun

/-- The code point the run maps its first code point onto. -/
def imageLo (r : CaseRun) : Nat := (r.lo + r.delta).toNat

/-- The code point the run maps its last code point onto. -/
def imageHi (r : CaseRun) : Nat := (r.hi + r.delta).toNat

/-- Whether `s` covers none of the code points `r` maps onto: they lie outside `s`, or `s` covers
every other code point and those of `r` all have the other parity. -/
def missesImage (r s : CaseRun) : Bool :=
  r.imageHi < s.lo || s.hi < r.imageLo ||
    (s.stride == 2 && (r.stride == 2 || r.lo == r.hi) && r.imageLo % 2 != s.lo % 2)

/-- Ranges of code points that are neither white space, nor ASCII other than the capital
letters, nor surrogates. -/
def quietRanges : List (Nat × Nat) :=
  [(0x41, 0x5A), (0xA1, 0x167F), (0x1681, 0x1FFF), (0x2060, 0x2FFF), (0x3001, 0xD7FF), (0xE000, 0x10FFFF)]

/-- Whether a code point lies in one of the quiet ranges. -/
def quiet (n : Nat) : Bool := quietRanges.any fun range => range.1 ≤ n && n ≤ range.2

/-- Whether the run maps into one quiet range. -/
def imageQuiet (r : CaseRun) : Bool :=
  quietRanges.any fun range => range.1 ≤ r.imageLo && r.imageHi ≤ range.2

/-- Whether the run maps into a quiet range, onto code points no run of the table covers. -/
def settles (table : Array CaseRun) (r : CaseRun) : Bool :=
  r.imageQuiet && table.toList.all r.missesImage

theorem covers_iff {r : CaseRun} {n : Nat} :
    r.covers n = true ↔ r.lo ≤ n ∧ n ≤ r.hi ∧ (n - r.lo) % r.stride = 0 := by
  simp only [covers, Bool.and_eq_true, decide_eq_true_eq, beq_iff_eq, and_assoc]

theorem imageLo_ge {r : CaseRun} (quietImage : r.imageQuiet = true) : 0x41 ≤ r.imageLo := by
  simp only [imageQuiet, quietRanges, List.any_cons, List.any_nil, Bool.or_false, Bool.or_eq_true,
    Bool.and_eq_true, decide_eq_true_eq] at quietImage
  unfold imageLo imageHi at *
  omega

theorem quiet_image {r : CaseRun} (quietImage : r.imageQuiet = true) {n : Nat} (covered : r.covers n = true) :
    quiet (n + r.delta).toNat = true := by
  have bounds := imageLo_ge quietImage
  rw [covers_iff] at covered
  unfold imageLo at bounds
  simp only [imageQuiet, quietRanges, quiet, List.any_cons, List.any_nil, Bool.or_false, Bool.or_eq_true,
    Bool.and_eq_true, decide_eq_true_eq] at quietImage ⊢
  unfold imageLo imageHi at quietImage
  omega

theorem covers_image {r s : CaseRun} (quietImage : r.imageQuiet = true) (misses : r.missesImage s = true)
    {n : Nat} (covered : r.covers n = true) : s.covers (n + r.delta).toNat = false := by
  have bounds := imageLo_ge quietImage
  rw [covers_iff] at covered
  rw [← Bool.not_eq_true, covers_iff]
  simp only [missesImage, Bool.or_eq_true, Bool.and_eq_true, decide_eq_true_eq, beq_iff_eq, bne_iff_ne, ne_eq] at misses
  unfold imageLo imageHi at *
  -- the parity case: `r` covers only code points of its first one's parity
  rcases misses with (below | above) | ⟨⟨two, single⟩, parity⟩
  · omega
  · omega
  · rw [two]
    rcases single with single | single
    · rw [single] at covered
      omega
    · omega

theorem valid_of_quiet {n : Nat} (calm : quiet n = true) : n < 0xD800 ∨ (0xDFFF < n ∧ n < 0x110000) := by
  simp only [quiet, quietRanges, List.any_cons, List.any_nil, Bool.or_false, Bool.or_eq_true, Bool.and_eq_true,
    decide_eq_true_eq] at calm
  omega

theorem upper_of_quiet {n : Nat} (calm : quiet n = true) (ascii : n < 0x80) : 0x41 ≤ n ∧ n ≤ 0x5A := by
  simp only [quiet, quietRanges, List.any_cons, List.any_nil, Bool.or_false, Bool.or_eq_true, Bool.and_eq_true,
    decide_eq_true_eq] at calm
  omega

theorem isBlank_of_quiet {n : Nat} (calm : quiet n = true) : isBlank (Char.ofNat n) = false := by
  have valid := valid_of_quiet calm
  simp only [quiet, quietRanges, List.any_cons, List.any_nil, Bool.or_false, Bool.or_eq_true, Bool.and_eq_true,
    decide_eq_true_eq] at calm
  unfold isBlank
  rw [Utf8.toNat_ofNat_of_valid valid]
  dsimp only
  split <;> simp only [Bool.or_eq_false_iff, beq_eq_false_iff_ne, ne_eq, Bool.and_eq_false_iff,
    decide_eq_false_iff_not] <;> omega

theorem apply_cases (table : Array CaseRun) (c : Char) :
    apply table c = c ∨
      ∃ r ∈ table.toList, r.covers c.toNat = true ∧ apply table c = Char.ofNat (c.toNat + r.delta).toNat := by
  unfold apply
  split
  · rename_i r found
    have covering := Array.find?_some found
    exact .inr ⟨r, Array.mem_toList_iff.2 (Array.mem_of_find?_eq_some found), covering, rfl⟩
  · exact .inl rfl

theorem apply_of_uncovered {table : Array CaseRun} {c : Char}
    (uncovered : ∀ r ∈ table.toList, r.covers c.toNat = false) : apply table c = c := by
  unfold apply
  rw [Array.find?_eq_none.2 fun r member => by rw [uncovered r (Array.mem_toList_iff.2 member)]; decide]

/-- Whether run `r` ends before run `s` starts. -/
def precedes (r s : CaseRun) : Bool := r.lo ≤ r.hi && r.hi < s.lo

theorem covers_bounds {r : CaseRun} {n : Nat} (covered : r.covers n = true) : r.lo ≤ n ∧ n ≤ r.hi := by
  simp only [covers, Bool.and_eq_true, decide_eq_true_eq] at covered
  exact ⟨covered.1.1, covered.1.2⟩

theorem eq_of_covers {table : List CaseRun} (ordered : table.IsChain fun r s => r.precedes s = true)
    {r s : CaseRun} (first : r ∈ table) (second : s ∈ table) {n : Nat}
    (coversFirst : r.covers n = true) (coversSecond : s.covers n = true) : r = s := by
  -- a run precedes every later run, not only the next one
  have chained : Trans (fun r s : CaseRun => r.precedes s = true) (fun r s => r.precedes s = true)
      (fun r s => r.precedes s = true) :=
    ⟨fun before after => by
      simp only [precedes, Bool.and_eq_true, decide_eq_true_eq] at before after ⊢
      omega⟩
  have apart : table.Pairwise fun r s => ∀ n, r.covers n = true → s.covers n = true → False :=
    (List.isChain_iff_pairwise.1 ordered).imp fun before n covers covers' => by
      have := covers_bounds covers
      have := covers_bounds covers'
      simp only [precedes, Bool.and_eq_true, decide_eq_true_eq] at before
      omega
  have symmetric : Std.Symm fun r s : CaseRun => ∀ n, r.covers n = true → s.covers n = true → False :=
    ⟨fun _ _ disjoint n covers covers' => disjoint n covers' covers⟩
  by_contra different
  exact apart.forall first second different n coversFirst coversSecond

end CaseRun

set_option maxRecDepth 4000 in
/-- The runs of the uppercase table come in increasing order, so no character has two uppercase
partners in it. -/
theorem upperRuns_cover_once {r s : CaseRun} (first : r ∈ upperRuns.toList) (second : s ∈ upperRuns.toList)
    {n : Nat} (coversFirst : r.covers n = true) (coversSecond : s.covers n = true) : r = s :=
  CaseRun.eq_of_covers (by decide) first second coversFirst coversSecond

set_option maxRecDepth 4000 in
/-- The runs of the lowercase table come in increasing order, so no character has two lowercase
partners in it. -/
theorem lowerRuns_cover_once {r s : CaseRun} (first : r ∈ lowerRuns.toList) (second : s ∈ lowerRuns.toList)
    {n : Nat} (coversFirst : r.covers n = true) (coversSecond : s.covers n = true) : r = s :=
  CaseRun.eq_of_covers (by decide) first second coversFirst coversSecond

set_option maxRecDepth 4000 in
/-- Every run of the uppercase table maps into a quiet range, onto code points no run covers. -/
theorem upperRuns_settle : upperRuns.toList.all (CaseRun.settles upperRuns) = true := by decide

/-- A code point that is quiet and that no run of the uppercase table covers. -/
def SettledUpper (n : Nat) : Prop := CaseRun.quiet n = true ∧ ∀ r ∈ upperRuns.toList, r.covers n = false

theorem settledUpper_image {r : CaseRun} (member : r ∈ upperRuns.toList) {n : Nat} (covered : r.covers n = true) :
    SettledUpper (n + r.delta).toNat := by
  have settles := List.all_eq_true.1 upperRuns_settle r member
  simp only [CaseRun.settles, Bool.and_eq_true, List.all_eq_true] at settles
  exact ⟨CaseRun.quiet_image settles.1 covered,
    fun s inside => CaseRun.covers_image settles.1 (settles.2 s inside) covered⟩

theorem toNat_toUpper (c : Char) :
    c.toUpper.toNat = if 0x61 ≤ c.toNat ∧ c.toNat ≤ 0x7A then c.toNat - 32 else c.toNat := by
  unfold Char.toUpper
  split
  · rename_i lower
    have bounds : 0x61 ≤ c.toNat ∧ c.toNat ≤ 0x7A := by
      rw [UInt32.le_iff_toNat_le, UInt32.le_iff_toNat_le] at lower
      exact lower
    rw [if_pos bounds]
    show (c.val + ('A'.val - 'a'.val)).toNat = c.toNat - 32
    have shift : ('A'.val - 'a'.val).toNat = 4294967264 := by decide
    rw [UInt32.toNat_add, Char.toNat_val, shift]
    omega
  · rename_i upper
    rw [if_neg fun bounds => upper ⟨UInt32.le_iff_toNat_le.2 bounds.1, UInt32.le_iff_toNat_le.2 bounds.2⟩]

theorem toUpperChar_of_settled {d : Char} (settled : SettledUpper d.toNat) : toUpperChar d = d := by
  unfold toUpperChar
  split
  · rename_i ascii
    have capital := CaseRun.upper_of_quiet settled.1 ascii
    apply Char.toNat_inj.1
    rw [toNat_toUpper, if_neg (by omega)]
  · exact CaseRun.apply_of_uncovered settled.2

/-- Upper-casing leaves a character as it is or maps it onto a settled code point. -/
theorem toUpperChar_eq_or_settled (c : Char) : toUpperChar c = c ∨ SettledUpper (toUpperChar c).toNat := by
  unfold toUpperChar
  split
  · by_cases lower : 0x61 ≤ c.toNat ∧ c.toNat ≤ 0x7A
    · -- the first run of the table maps the ASCII lowercase letters as `Char.toUpper` does
      have first : (⟨0x61, 0x7A, -32, 1⟩ : CaseRun) ∈ upperRuns.toList := List.mem_cons_self
      have covered : CaseRun.covers ⟨0x61, 0x7A, -32, 1⟩ c.toNat = true := by
        rw [CaseRun.covers_iff]
        dsimp only
        omega
      have same : c.toUpper.toNat = (c.toNat + (-32 : Int)).toNat := by
        rw [toNat_toUpper, if_pos lower]
        omega
      exact .inr (same ▸ settledUpper_image first covered)
    · exact .inl (Char.toNat_inj.1 (by rw [toNat_toUpper, if_neg lower]))
  · rcases CaseRun.apply_cases upperRuns c with same | ⟨r, member, covered, mapped⟩
    · exact .inl same
    · have settled := settledUpper_image member covered
      rw [mapped, Utf8.toNat_ofNat_of_valid (CaseRun.valid_of_quiet settled.1)]
      exact .inr settled

theorem toUpperChar_toUpperChar (c : Char) : toUpperChar (toUpperChar c) = toUpperChar c := by
  rcases toUpperChar_eq_or_settled c with same | settled
  · rw [same]
    exact same
  · exact toUpperChar_of_settled settled

/-- Upper-casing never makes white space. -/
theorem isBlank_toUpperChar {c : Char} (solid : isBlank c = false) : isBlank (toUpperChar c) = false := by
  rcases toUpperChar_eq_or_settled c with same | settled
  · rw [same]
    exact solid
  · have quiet := CaseRun.isBlank_of_quiet settled.1
    rwa [Char.ofNat_toNat] at quiet

/-- A character upper-cased onto a code point outside the quiet ranges was that character. -/
theorem toUpperChar_eq_of_loud {c : Char} (loud : CaseRun.quiet (toUpperChar c).toNat = false) :
    toUpperChar c = c := by
  rcases toUpperChar_eq_or_settled c with same | settled
  · exact same
  · rw [settled.1] at loud
    cases loud

namespace Bytes

open Utf8

theorem toUpper_encode (cs : List Char) : (encode cs).toUpper = encode (cs.map toUpperChar) := by
  rw [toUpper, runes_encode]

theorem toUpper_toUpper (b : Bytes) : b.toUpper.toUpper = b.toUpper := by
  have once : b.toUpper = encode ((runes b).map toUpperChar) := rfl
  rw [once, toUpper_encode, List.map_map]
  exact congrArg encode (List.map_congr_left fun c _ => toUpperChar_toUpperChar c)

theorem toUpper_eq_nil_iff {b : Bytes} : b.toUpper = [] ↔ b = [] := by
  rw [toUpper, encode_eq_nil_iff, List.map_eq_nil_iff, runes, List.map_eq_nil_iff, pieces_eq_nil_iff]

end Bytes

end MarketData
