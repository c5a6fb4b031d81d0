import Mathlib.Data.List.Perm.Basic
import MarketData.Sorting.Stable

/-!
# Stable sorting permutes

Every step of `stableSort` moves elements and never makes or loses one. A step of insertion swaps
two neighbours, and a merge rotates neighbouring blocks: it trades the places of the blocks
`[a, m)` and `[m, b)`, which is a permutation whenever `a ≤ m ≤ b`, and the merge rotates only
under a guard that says so. The sorted array therefore holds the elements of its input, each as
often as the input does (`stableSort_perm`), whatever the order `less` is.
-/

namespace MarketData.Sorting

variable {α : Type} [Inhabited α] (less : α → α → Bool)

section Steps

omit [Inhabited α]

theorem foldl_perm {β : Type} (step : Array α → β → Array α)
    (permutes : ∀ xs b, (step xs b).toList.Perm xs.toList) (bs : List β) (xs : Array α) :
    (bs.foldl step xs).toList.Perm xs.toList := by
  induction bs generalizing xs with
  | nil => exact .refl _
  | cons b bs inductionHypothesis => exact (inductionHypothesis (step xs b)).trans (permutes xs b)

theorem dite_perm {c : Prop} [Decidable c] {ys : Array α} {step : c → Array α}
    (permutes : ∀ h, (step h).toList.Perm ys.toList) :
    (if h : c then step h else ys).toList.Perm ys.toList := by
  split
  case isTrue h => exact permutes h
  case isFalse => exact .refl _

theorem swapIfInBounds_perm (xs : Array α) (i j : Nat) :
    (xs.swapIfInBounds i j).toList.Perm xs.toList := by
  unfold Array.swapIfInBounds
  split
  case isTrue => exact dite_perm fun _ => Array.Perm.toList (Array.swap_perm _ _)
  case isFalse => exact .refl _

theorem rotate_perm (xs : Array α) {a m b : Nat} (first : a ≤ m) (second : m ≤ b) :
    (rotate xs a m b).toList.Perm xs.toList := by
  have low : xs.toList.take a ++ (xs.toList.take m).drop a = xs.toList.take m := by
    have split := List.take_append_drop a (xs.toList.take m)
    rwa [List.take_take, Nat.min_eq_left first] at split
  have high : xs.toList.take m ++ (xs.toList.take b).drop m = xs.toList.take b := by
    have split := List.take_append_drop m (xs.toList.take b)
    rwa [List.take_take, Nat.min_eq_left second] at split
  have whole : xs.toList.take a ++ (xs.toList.take m).drop a ++ (xs.toList.take b).drop m ++
      xs.toList.drop b = xs.toList := by
    rw [low, high, List.take_append_drop]
  unfold rotate
  rw [List.toList_toArray]
  -- the two inner blocks trade places
  calc List.Perm _ (xs.toList.take a ++ (xs.toList.take m).drop a ++ (xs.toList.take b).drop m ++
        xs.toList.drop b) := by
        simp only [List.append_assoc]
        exact (List.perm_append_comm_assoc _ _ _).append_left _
    _ = xs.toList := whole

theorem rotate_perm_of_guard (xs : Array α) {s m t : Nat}
    (guard : (decide (s < m) && decide (m < t)) = true) : (rotate xs s m t).toList.Perm xs.toList := by
  simp only [Bool.and_eq_true, decide_eq_true_eq] at guard
  exact rotate_perm xs (Nat.le_of_lt guard.1) (Nat.le_of_lt guard.2)

end Steps

theorem sink_perm (a j : Nat) (xs : Array α) : (sink less xs a j).toList.Perm xs.toList := by
  induction j generalizing xs with
  | zero => exact .refl _
  | succ j inductionHypothesis =>
    unfold sink
    split
    case isTrue => exact (inductionHypothesis _).trans (swapIfInBounds_perm xs _ _)
    case isFalse => exact .refl _

theorem insertionSort_perm (xs : Array α) (a b : Nat) :
    (insertionSort less xs a b).toList.Perm xs.toList :=
  foldl_perm _ (fun xs i => sink_perm less a i xs) _ xs

theorem sortBlocks_perm (xs : Array α) : (sortBlocks less xs).toList.Perm xs.toList :=
  foldl_perm _ (fun xs _ => insertionSort_perm less xs _ _) _ xs

theorem symMerge_perm (xs : Array α) (a m b : Nat) : (symMerge less xs a m b).toList.Perm xs.toList := by
  fun_induction symMerge less xs a m b with
  | case1 xs a m b _ i inserted => exact rotate_perm xs (by omega) (by omega)
  | case2 | case4 => exact .refl _
  | case3 xs a m b _ _ i inserted => exact rotate_perm xs (by omega) (by omega)
  | case5 xs a m b _ _ mid n start₀ r _ start stop rotated merged _ left _ right =>
    exact right.trans ((dite_perm left).trans (dite_perm (rotate_perm_of_guard xs)))
  | case6 xs a m b _ _ mid n start₀ r _ start stop rotated merged _ left =>
    exact (dite_perm left).trans (dite_perm (rotate_perm_of_guard xs))

theorem mergePass_perm (xs : Array α) (width : Nat) : (mergePass less xs width).toList.Perm xs.toList := by
  unfold mergePass
  dsimp only
  have merged := foldl_perm _ (fun xs k => symMerge_perm less xs (2 * width * k) (2 * width * k + width)
    (2 * width * (k + 1))) (List.range (xs.size / (2 * width))) xs
  split
  case isTrue => exact (symMerge_perm less _ _ _ _).trans merged
  case isFalse => exact merged

theorem mergePasses_perm (fuel width : Nat) (xs : Array α) :
    (mergePasses less xs fuel width).toList.Perm xs.toList := by
  induction fuel generalizing xs width with
  | zero => exact .refl _
  | succ fuel inductionHypothesis =>
    unfold mergePasses
    split
    case isTrue => exact (inductionHypothesis _ _).trans (mergePass_perm less xs width)
    case isFalse => exact .refl _

/-- Sorting keeps every element, each as often as the input holds it. -/
theorem stableSort_perm (xs : Array α) : (stableSort less xs).toList.Perm xs.toList :=
  (mergePasses_perm less _ _ _).trans (sortBlocks_perm less xs)

end MarketData.Sorting
