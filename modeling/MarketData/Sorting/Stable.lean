/-!
Stable sorting by blocks and symmetric merges.

The array is cut into blocks of twenty, each sorted by insertion: an element moves left past
every neighbour it is less than. Then neighbouring runs of 20, 40, 80, ... elements are merged
in place by the symmetric merge (SymMerge): a run of one element is inserted by binary search;
otherwise the two runs are split around the middle of the whole range so that rotating the
two inner parts leaves two smaller merges.

For a strict weak order this is a stable sort. For a relation that is not one, the result is
still fully determined by the comparisons this procedure makes, and that result is what callers
of this module rely on.

Rotations stand for the element swaps of an in-place implementation: every sequence of swaps
used here moves a whole block, so each is stated as the rotation it performs.
-/

namespace MarketData.Sorting

variable {α : Type} [Inhabited α] (less : α → α → Bool)

/-- The blocks `[a, m)` and `[m, b)` of an array trade places. -/
def rotate (xs : Array α) (a m b : Nat) : Array α :=
  let l := xs.toList
  (l.take a ++ (l.take b).drop m ++ (l.take m).drop a ++ l.drop b).toArray

/-- The first index in `[i, j)` where `test` fails, found by halving; `test` is assumed to hold
on a prefix of the range. -/
def search (test : Nat → Bool) (i j : Nat) : Nat :=
  if h : i < j then
    let mid := (i + j) / 2
    if test mid then search test (mid + 1) j else search test i mid
  else i
termination_by j - i

/-- Moves the element at index `j` left past each element of the block from `a` that it is
less than, one neighbour at a time. -/
def sink (xs : Array α) (a : Nat) : Nat → Array α
  | 0 => xs
  | j + 1 =>
    if a ≤ j && less xs[j + 1]! xs[j]! then sink (xs.swapIfInBounds (j + 1) j) a j else xs

/-- Sorts the block `[a, b)` by insertion. -/
def insertionSort (xs : Array α) (a b : Nat) : Array α :=
  (List.range' (a + 1) (b - (a + 1))).foldl (fun xs i => sink less xs a i) xs

/-- Merges the sorted runs `[a, m)` and `[m, b)`. -/
def symMerge (xs : Array α) (a m b : Nat) : Array α :=
  if m - a = 1 then
    -- insert the single element `xs[a]` before the first element of `[m, b)` not less than it
    let i := search (fun h => less xs[h]! xs[a]!) m b
    if a + 1 < i then rotate xs a (a + 1) i else xs
  else if b - m = 1 then
    -- insert the single element `xs[m]` before the first element of `[a, m)` greater than it
    let i := search (fun h => !less xs[m]! xs[h]!) a m
    if i < m then rotate xs i m (m + 1) else xs
  else
    let mid := (a + b) / 2
    let n := mid + m
    let (start, r) := if m > mid then (n - b, mid) else (a, m)
    let start := search (fun c => !less xs[n - 1 - c]! xs[c]!) start r
    let stop := n - start
    let xs := if start < m && m < stop then rotate xs start m stop else xs
    let xs := if _ : a < start ∧ start < mid then symMerge xs a start mid else xs
    if _ : mid < stop ∧ stop < b then symMerge xs mid stop b else xs
termination_by b - a
decreasing_by all_goals omega

/-- Sorts every block of twenty, and the shorter block at the end. -/
def sortBlocks (xs : Array α) : Array α :=
  (List.range (xs.size / 20 + 1)).foldl
    (fun xs k => insertionSort less xs (20 * k) (min (20 * k + 20) xs.size)) xs

/-- Merges neighbouring runs of `width` elements, and the short run at the end with the run
before it. -/
def mergePass (xs : Array α) (width : Nat) : Array α :=
  let n := xs.size
  let pairs := n / (2 * width)
  let xs := (List.range pairs).foldl
    (fun xs k => symMerge less xs (2 * width * k) (2 * width * k + width) (2 * width * (k + 1))) xs
  let a := 2 * width * pairs
  if a + width < n then symMerge less xs a (a + width) n else xs

/-- Merge passes with doubling widths until one run covers the array; `fuel` bounds the number
of passes, and the size of the array is always enough. -/
def mergePasses (xs : Array α) : Nat → Nat → Array α
  | 0, _ => xs
  | fuel + 1, width => if width < xs.size then mergePasses (mergePass less xs width) fuel (2 * width) else xs

/-- Sorts an array stably by `less`. -/
def stableSort (xs : Array α) : Array α :=
  mergePasses less (sortBlocks less xs) xs.size 20

example : rotate #[1, 2, 3, 4, 5] 1 3 5 = #[1, 4, 5, 2, 3] := by decide

example :
    stableSort (fun a b : Nat => a < b) #[3, 1, 2, 1] = #[1, 1, 2, 3] := by decide +kernel

end MarketData.Sorting
