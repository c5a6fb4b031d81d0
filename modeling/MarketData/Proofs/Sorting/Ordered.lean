import Mathlib
import MarketData.Proofs.Sorting.Merge

/-!
# Stable sorting orders

`stableSort` sorts blocks of twenty by insertion and then merges neighbouring runs of doubling
width. Both stages keep one invariant of the array's list: every run of the current width is
ordered (`RunsOrdered`). Sorting the blocks establishes it for width twenty (`sortBlocks_runs`),
each merge pass doubles the width (`mergePass_runs`), and once one run covers the array the whole
array is ordered (`stableSort_ordered`).

When no two values of the array are equivalent, an ordered permutation of them is unique, so
sorting leaves an ordered array as it is and sorting twice sorts once (`stableSort_idem`).
-/

namespace MarketData.Sorting

variable {α : Type}

section Runs

/-- The `k`-th run of width `w` of a list: its values from `w * k` up to `w * k + w`. -/
def run (l : List α) (w k : Nat) : List α := (l.drop (w * k)).take w

variable (less : α → α → Bool) in
/-- Every run of width `w` is ordered. -/
def RunsOrdered (w : Nat) (l : List α) : Prop := ∀ k, Ordered less (run l w k)

theorem length_run (l : List α) (w k : Nat) : (run l w k).length = min w (l.length - w * k) := by
  simp [run]

theorem mem_of_mem_run {l : List α} {w k : Nat} {y : α} (member : y ∈ run l w k) : y ∈ l :=
  List.mem_of_mem_drop (List.mem_of_mem_take member)

theorem cut_three (l : List α) (i u v : Nat) :
    l = l.take i ++ (l.drop i).take u ++ (l.drop (i + u)).take v ++ l.drop (i + u + v) := by
  conv_lhs => rw [← List.take_append_drop i l, ← List.take_append_drop u (l.drop i),
    ← List.take_append_drop v ((l.drop i).drop u)]
  simp [List.drop_drop, Nat.add_assoc]

theorem run_beyond {l : List α} {w k : Nat} (beyond : l.length ≤ w * k) : run l w k = [] := by
  simp [run, List.drop_eq_nil_of_le beyond]

theorem run_double (l : List α) (w k : Nat) : run l (2 * w) k = run l w (2 * k) ++ run l w (2 * k + 1) := by
  simp only [run, show 2 * w = w + w by omega, List.take_add, List.drop_drop]
  congr 3 <;> simp only [Nat.add_mul, Nat.mul_add, Nat.two_mul, Nat.mul_one]

theorem run_block {pre M post : List α} {w k : Nat} (hpre : pre.length = w * k) (fits : M.length ≤ w)
    (full : M.length = w ∨ post = []) : run (pre ++ M ++ post) w k = M := by
  unfold run
  rw [List.append_assoc, List.drop_left' hpre]
  rcases full with full | rfl
  · exact List.take_left' full
  · rw [List.append_nil, List.take_of_length_le fits]

/-- Putting a block of the same length in place of another leaves the runs outside it as they
were. -/
theorem run_frame {pre B M post : List α} (same : M.length = B.length) {w k : Nat}
    (outside : w * k + w ≤ pre.length ∨ pre.length + B.length ≤ w * k) :
    run (pre ++ M ++ post) w k = run (pre ++ B ++ post) w k := by
  unfold run
  rcases outside with before | after
  · have within : ∀ l : List α, ((pre ++ l).drop (w * k)).take w = (pre.drop (w * k)).take w := by
      intro l
      rw [List.drop_append_of_le_length (by omega), List.take_append_of_le_length (by simp; omega)]
    rw [List.append_assoc, within, List.append_assoc, within]
  · have skipped : ∀ l : List α, l.length = B.length →
        (pre ++ l ++ post).drop (w * k) = post.drop (w * k - (pre.length + B.length)) := by
      intro l length
      rw [show w * k = (pre.length + B.length) + (w * k - (pre.length + B.length)) by omega, ← List.drop_drop,
        List.drop_left' (by simp [length]), Nat.add_sub_cancel_left]
    rw [skipped M same, skipped B rfl]

end Runs

section Keys

variable {β : Type} [LinearOrder β] {less : α → α → Bool} {P : α → Prop} (key : α → β)
  (agrees : ∀ {x y}, P x → P y → (less x y = true ↔ key x < key y))
include agrees

theorem WeakOrderOn.of_key : WeakOrderOn less P where
  asymm hx hy lt := by
    cases back : less _ _
    · rfl
    · exact absurd ((agrees hy hx).1 back) (not_lt_of_gt ((agrees hx hy).1 lt))
  negTrans hx hy hz lt := by
    rcases lt_or_ge (key _) (key _) with xy | yx
    · exact .inl ((agrees hx hy).2 xy)
    · exact .inr ((agrees hy hz).2 (lt_of_le_of_lt yx ((agrees hx hz).1 lt)))

theorem precedes_iff_key {x y : α} (hx : P x) (hy : P y) : Precedes less x y ↔ key x ≤ key y := by
  rw [Precedes, ← not_lt, ← agrees hy hx, Bool.not_eq_true]

end Keys

theorem cut_run (l : List α) (w k : Nat) : l = l.take (w * k) ++ run l w k ++ l.drop (w * k + w) := by
  conv_lhs => rw [← List.take_append_drop (w * k) l, ← List.take_append_drop w (l.drop (w * k))]
  simp [run, List.drop_drop]

variable [Inhabited α] {less : α → α → Bool} {P : α → Prop} (order : WeakOrderOn less P)
include order

omit [Inhabited α] order in
/-- Putting an ordered block of the same length in place of the run `k` keeps the runs before it
ordered and makes the run `k` ordered. -/
theorem runs_through_block {l l' M : List α} {w k : Nat} (within : w * k ≤ l.length)
    (replaced : l' = l.take (w * k) ++ M ++ l.drop (w * k + w)) (same : M.length = (run l w k).length)
    (ordered : Ordered less M) (before : ∀ j < k, Ordered less (run l w j)) :
    ∀ j < k + 1, Ordered less (run l' w j) := by
  have hpre : (l.take (w * k)).length = w * k := by simp; omega
  have length := length_run l w k
  intro j below
  rcases Nat.lt_succ_iff_lt_or_eq.1 below with earlier | rfl
  · rw [replaced, run_frame same (.inl (by rw [hpre]; exact Nat.mul_le_mul_left w earlier)), ← cut_run]
    exact before j earlier
  · rw [replaced, run_block hpre (by omega) ?_]
    · exact ordered
    · by_cases short : l.length ≤ w * j + w
      · exact .inr (List.drop_eq_nil_of_le short)
      · exact .inl (by omega)

/-- Sorting the blocks of twenty orders every run of twenty. -/
theorem sortBlocks_runs (xs : Array α) (inP : ∀ y ∈ xs.toList, P y) :
    RunsOrdered less 20 (sortBlocks less xs).toList := by
  -- after the first `k` blocks those are ordered
  have sorted : ∀ k ≤ xs.size / 20 + 1, ∀ j < k, Ordered less (run ((List.range k).foldl
      (fun xs k => insertionSort less xs (20 * k) (min (20 * k + 20) xs.size)) xs).toList 20 j) := by
    intro k
    induction k with
    | zero => intro _ j below; cases below
    | succ k inductionHypothesis =>
      intro within
      have permuted := foldl_perm _ (fun xs k => insertionSort_perm less xs (20 * k) (min (20 * k + 20) xs.size))
        (List.range k) xs
      rw [List.range_succ, List.foldl_append, List.foldl_cons, List.foldl_nil]
      generalize (List.range k).foldl
        (fun xs k => insertionSort less xs (20 * k) (min (20 * k + 20) xs.size)) xs = ys at inductionHypothesis permuted ⊢
      have size : ys.size = xs.size := by simpa using permuted.length_eq
      obtain ⟨M, sortedBlock, perm, ordered⟩ := insertionSort_spec order ys _ _ _ (cut_run ys.toList 20 k)
        (fun y member => inP y (permuted.mem_iff.1 (mem_of_mem_run member)))
      have hpre : (ys.toList.take (20 * k)).length = 20 * k := by simp; omega
      have hB : 20 * k + (run ys.toList 20 k).length = min (20 * k + 20) ys.size := by
        rw [length_run]; simp; omega
      rw [hpre, hB] at sortedBlock
      exact runs_through_block (by simp; omega) sortedBlock perm.length_eq ordered (inductionHypothesis (by omega))
  intro j
  by_cases below : j < xs.size / 20 + 1
  · exact sorted _ (Nat.le_refl _) j below
  · have size : (sortBlocks less xs).toList.length = xs.size := by simpa using (sortBlocks_perm less xs).length_eq
    rw [run_beyond (by omega)]
    exact List.Pairwise.nil

/-- A merge pass makes every run of twice the width ordered. -/
theorem mergePass_runs {w : Nat} (positive : 0 < w) (xs : Array α) (inP : ∀ y ∈ xs.toList, P y)
    (runs : RunsOrdered less w xs.toList) : RunsOrdered less (2 * w) (mergePass less xs w).toList := by
  -- after the first `k` merges those runs are ordered, and the runs of width `w` after them are as
  -- they were
  have merged : ∀ k ≤ xs.size / (2 * w),
      let ys := (List.range k).foldl
        (fun xs k => symMerge less xs (2 * w * k) (2 * w * k + w) (2 * w * (k + 1))) xs
      (∀ j < k, Ordered less (run ys.toList (2 * w) j)) ∧ ∀ j, 2 * k ≤ j → Ordered less (run ys.toList w j) := by
    intro k
    induction k with
    | zero => exact fun _ => ⟨fun j below => absurd below (Nat.not_lt_zero j), fun j _ => runs j⟩
    | succ k inductionHypothesis =>
      intro within
      have permuted := foldl_perm _ (fun xs k => symMerge_perm less xs (2 * w * k) (2 * w * k + w) (2 * w * (k + 1)))
        (List.range k) xs
      dsimp only at inductionHypothesis ⊢
      rw [List.range_succ, List.foldl_append, List.foldl_cons, List.foldl_nil]
      generalize (List.range k).foldl
        (fun xs k => symMerge less xs (2 * w * k) (2 * w * k + w) (2 * w * (k + 1))) xs = ys
        at inductionHypothesis permuted ⊢
      obtain ⟨before, after⟩ := inductionHypothesis (by omega)
      have size : ys.toList.length = xs.size := by simpa using permuted.length_eq
      have step : 2 * w * (k + 1) = 2 * w * k + 2 * w := Nat.mul_succ _ _
      have fits : 2 * w * (k + 1) ≤ xs.size := by
        have := Nat.mul_div_le xs.size (2 * w)
        have := Nat.mul_le_mul_left (2 * w) within
        omega
      -- the two runs merged make the run `k` of twice the width
      have cut : ys.toList = ys.toList.take (2 * w * k) ++ run ys.toList w (2 * k) ++ run ys.toList w (2 * k + 1) ++
          ys.toList.drop (2 * w * k + 2 * w) := by
        rw [show 2 * w * k + 2 * w = 2 * w * k + w + w by omega, run, run, show w * (2 * k) = 2 * w * k by grind,
          show w * (2 * k + 1) = 2 * w * k + w by grind]
        exact cut_three _ _ _ _
      have lengthL : (run ys.toList w (2 * k)).length = w := by
        rw [length_run, show w * (2 * k) = 2 * w * k by grind]
        omega
      have lengthR : (run ys.toList w (2 * k + 1)).length = w := by
        rw [length_run, show w * (2 * k + 1) = 2 * w * k + w by grind]
        omega
      obtain ⟨M, mergedBlock, perm, ordered⟩ := symMerge_spec order ys (2 * w * k) (2 * w * k + w) (2 * w * (k + 1))
        _ _ _ _ cut (by simp only [List.length_take, size]; omega) (by rw [lengthL]) (by rw [lengthR]; omega)
        (after _ (Nat.le_refl _)) (after _ (by omega))
        (fun y member => inP y (permuted.mem_iff.1 ((List.mem_append.1 member).elim mem_of_mem_run mem_of_mem_run)))
      have same : M.length = (run ys.toList w (2 * k) ++ run ys.toList w (2 * k + 1)).length := perm.length_eq
      refine ⟨runs_through_block (by omega) mergedBlock (by rw [run_double]; exact same) ordered before,
        fun j far => ?_⟩
      have past : 2 * w * k + 2 * w ≤ w * j := by
        have := Nat.mul_le_mul_left w far
        rw [show w * (2 * (k + 1)) = 2 * w * k + 2 * w by grind] at this
        exact this
      rw [mergedBlock, run_frame same (.inr (by simp only [List.length_take, List.length_append, size]; omega)),
        ← List.append_assoc (List.take _ _) (run _ _ _), ← cut]
      exact after j (by omega)
  intro j
  have covered : xs.size < 2 * w * (xs.size / (2 * w)) + 2 * w := by
    have := Nat.lt_mul_div_succ xs.size (by omega : 0 < 2 * w)
    rwa [Nat.mul_succ] at this
  by_cases far : xs.size / (2 * w) < j
  · -- the runs past the last pair are empty
    have size : (mergePass less xs w).toList.length = xs.size :=
      (mergePass_perm less xs w).length_eq.trans Array.length_toList
    have := Nat.mul_le_mul_left (2 * w) far
    rw [Nat.mul_succ] at this
    rw [run_beyond (by omega)]
    exact List.Pairwise.nil
  obtain ⟨before, after⟩ := merged (xs.size / (2 * w)) (Nat.le_refl _)
  have permuted := foldl_perm _ (fun xs k => symMerge_perm less xs (2 * w * k) (2 * w * k + w) (2 * w * (k + 1)))
    (List.range (xs.size / (2 * w))) xs
  have full := Nat.mul_div_le xs.size (2 * w)
  unfold mergePass
  dsimp only at before after ⊢
  generalize (List.range (xs.size / (2 * w))).foldl
    (fun xs k => symMerge less xs (2 * w * k) (2 * w * k + w) (2 * w * (k + 1))) xs = ys at before after permuted ⊢
  generalize xs.size / (2 * w) = pairs at before after covered full far ⊢
  have size : ys.toList.length = xs.size := permuted.length_eq.trans Array.length_toList
  have lengthL : (run ys.toList w (2 * pairs)).length = w ∨ xs.size ≤ 2 * w * pairs + w := by
    rw [length_run, show w * (2 * pairs) = 2 * w * pairs by grind]
    omega
  split
  case isTrue rest =>
    -- the short run at the end is merged with the run before it
    have cut : ys.toList = ys.toList.take (2 * w * pairs) ++ run ys.toList w (2 * pairs) ++
        ys.toList.drop (2 * w * pairs + w) ++ [] := by
      rw [List.append_nil, show 2 * w * pairs = w * (2 * pairs) by grind]
      exact cut_run _ _ _
    have shortRun : ys.toList.drop (2 * w * pairs + w) = run ys.toList w (2 * pairs + 1) := by
      rw [run, show w * (2 * pairs + 1) = 2 * w * pairs + w by grind, List.take_of_length_le (by rw [List.length_drop, size]; omega)]
    have lengthL' : (run ys.toList w (2 * pairs)).length = w := lengthL.resolve_right (by omega)
    obtain ⟨M, mergedBlock, perm, ordered⟩ := symMerge_spec order ys (2 * w * pairs) (2 * w * pairs + w) xs.size
      _ _ _ _ cut (by simp only [List.length_take, size]; omega) (by rw [lengthL'])
      (by rw [List.length_drop, size]; omega)
      (after _ (Nat.le_refl _)) (by rw [shortRun]; exact after _ (by omega))
      (fun y member => inP y (permuted.mem_iff.1 ((List.mem_append.1 member).elim mem_of_mem_run
        List.mem_of_mem_drop)))
    have replaced : (symMerge less ys (2 * w * pairs) (2 * w * pairs + w) xs.size).toList =
        ys.toList.take (2 * w * pairs) ++ M ++ ys.toList.drop (2 * w * pairs + 2 * w) := by
      rw [mergedBlock, List.append_nil, List.drop_eq_nil_of_le (by rw [size]; grind), List.append_nil]
    refine runs_through_block (by omega) replaced ?_ ordered before j (by omega)
    rw [perm.length_eq, length_run, List.length_append, lengthL', List.length_drop, size]
    omega
  case isFalse short =>
    -- the run at the end has no partner and is already ordered
    rcases Nat.lt_or_eq_of_le (Nat.not_lt.1 far) with earlier | rfl
    · exact before j earlier
    · rw [run_double, run_beyond (l := ys.toList) (k := 2 * j + 1) (by rw [size, show w * (2 * j + 1) = 2 * w * j + w by grind]; omega),
        List.append_nil]
      exact after _ (Nat.le_refl _)

omit [Inhabited α] order in
theorem RunsOrdered.ordered {w : Nat} {l : List α} (runs : RunsOrdered less w l) (covers : l.length ≤ w) :
    Ordered less l := by
  have whole := runs 0
  rwa [run, Nat.mul_zero, List.drop_zero, List.take_of_length_le covers] at whole

theorem mergePasses_ordered (fuel : Nat) : ∀ (w : Nat) (xs : Array α), 0 < w → (∀ y ∈ xs.toList, P y) →
    RunsOrdered less w xs.toList → xs.size ≤ w * 2 ^ fuel → Ordered less (mergePasses less xs fuel w).toList := by
  induction fuel with
  | zero =>
    intro w xs _ _ runs covers
    rw [Nat.pow_zero, Nat.mul_one] at covers
    exact runs.ordered (by rw [Array.length_toList]; exact covers)
  | succ fuel inductionHypothesis =>
    intro w xs positive inP runs covers
    unfold mergePasses
    split
    case isTrue narrow =>
      -- one pass doubles the width and halves what the remaining passes must cover
      have size : (mergePass less xs w).size = xs.size := by
        rw [← Array.length_toList, ← Array.length_toList]
        exact (mergePass_perm less xs w).length_eq
      refine inductionHypothesis (2 * w) _ (by omega)
        (fun y member => inP y ((mergePass_perm less xs w).mem_iff.1 member)) (mergePass_runs order positive xs inP runs) ?_
      rw [size, show 2 * w * 2 ^ fuel = w * 2 ^ (fuel + 1) by
        rw [Nat.pow_succ, Nat.mul_comm (2 ^ fuel) 2, Nat.mul_assoc, Nat.mul_left_comm w 2]]
      exact covers
    case isFalse wide => exact runs.ordered (by rw [Array.length_toList]; omega)

/-- Sorting orders the array: no value of the result is less than one before it. -/
theorem stableSort_ordered (xs : Array α) (inP : ∀ y ∈ xs.toList, P y) : Ordered less (stableSort less xs).toList := by
  have size : (sortBlocks less xs).size = xs.size := by simpa using (sortBlocks_perm less xs).length_eq
  refine mergePasses_ordered order xs.size 20 (sortBlocks less xs) (by decide)
    (fun y member => inP y ((sortBlocks_perm less xs).mem_iff.1 member)) (sortBlocks_runs order xs inP) ?_
  have := @Nat.lt_two_pow_self xs.size
  omega

/-- Sorting an ordered array of values no two of which are equivalent leaves it as it is: an
ordered permutation of such values is unique. -/
theorem stableSort_eq_of_ordered (xs : Array α) (inP : ∀ y ∈ xs.toList, P y)
    (distinct : ∀ x ∈ xs.toList, ∀ y ∈ xs.toList, Precedes less x y → Precedes less y x → x = y)
    (ordered : Ordered less xs.toList) : stableSort less xs = xs := by
  have perm := stableSort_perm less xs
  apply Array.toList_inj.1
  exact perm.eq_of_pairwise (fun x y sorted original => distinct x (perm.mem_iff.1 sorted) y original)
    (stableSort_ordered order xs inP) ordered

/-- Sorting twice sorts once, when no two values are equivalent. -/
theorem stableSort_idem (xs : Array α) (inP : ∀ y ∈ xs.toList, P y)
    (distinct : ∀ x ∈ xs.toList, ∀ y ∈ xs.toList, Precedes less x y → Precedes less y x → x = y) :
    stableSort less (stableSort less xs) = stableSort less xs := by
  have perm := stableSort_perm less xs
  exact stableSort_eq_of_ordered order _ (fun y member => inP y (perm.mem_iff.1 member))
    (fun x inX y inY => distinct x (perm.mem_iff.1 inX) y (perm.mem_iff.1 inY)) (stableSort_ordered order xs inP)

end MarketData.Sorting
