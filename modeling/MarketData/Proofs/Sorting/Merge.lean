import MarketData.Proofs.Sorting.Permutation

/-!
# Stable sorting orders: insertion and merging

The steps of `stableSort` each work on a block of the array and leave the rest of it alone. Their
specifications therefore cut the array's list as `pre ++ B ++ post` and say what stands in place
of the block `B` afterwards.

Ordering is stated for a strict weak order on the values that occur (`WeakOrderOn`): of two
values at most one is less than the other, and a value less than another is less than, or greater
than, any third. A list is ordered when no value is less than one before it (`Ordered`).

Insertion sort makes its block ordered (`insertionSort_spec`). The symmetric merge makes two
neighbouring ordered blocks into one ordered block holding the same values (`symMerge_spec`):
a single value is inserted by binary search; otherwise a search along the antidiagonal of the
two blocks finds where to cut them (`split_point`), a rotation trades the two inner parts, and
the two smaller merges that follow finish the job (`Merges.halves`).
-/

namespace MarketData.Sorting

variable {α : Type}

section Blocks

theorem getElem!_split [Inhabited α] {xs : Array α} {l₁ l₂ : List α} (split : xs.toList = l₁ ++ l₂) {i : Nat}
    (within : i < l₂.length) : xs[l₁.length + i]! = l₂[i] := by
  rw [← Array.getElem!_toList, split, List.getElem!_eq_getElem?_getD,
    List.getElem?_append_right (by omega), Nat.add_sub_cancel_left, List.getElem?_eq_getElem within]
  rfl

theorem getElem!_block [Inhabited α] {xs : Array α} {l₁ B l₂ : List α} (split : xs.toList = l₁ ++ B ++ l₂)
    {j : Nat} (within : j < B.length) : xs[l₁.length + j]! = B[j] := by
  have whole : xs.toList = l₁ ++ (B ++ l₂) := by rw [split, List.append_assoc]
  rw [getElem!_split whole (by simp; omega), List.getElem_append_left within]

theorem swapIfInBounds_split {xs : Array α} {l₁ l₂ : List α} {u v : α}
    (split : xs.toList = l₁ ++ u :: v :: l₂) :
    (xs.swapIfInBounds (l₁.length + 1) l₁.length).toList = l₁ ++ v :: u :: l₂ := by
  have size : xs.size = l₁.length + 2 + l₂.length := by
    rw [← Array.length_toList, split]; simp; omega
  apply List.ext_getElem
  · simp [size]; omega
  · intro i within _
    rw [Array.getElem_toList, Array.getElem_swapIfInBounds]
    simp only [← Array.getElem_toList, split]
    simp only [List.getElem_append, List.getElem_cons]
    split_ifs <;> first | rfl | omega

theorem rotate_split (xs : Array α) {l₁ X Y l₂ : List α} (split : xs.toList = l₁ ++ X ++ Y ++ l₂) :
    (rotate xs l₁.length (l₁.length + X.length) (l₁.length + X.length + Y.length)).toList =
      l₁ ++ Y ++ X ++ l₂ := by
  have whole : xs.toList = l₁ ++ (X ++ (Y ++ l₂)) := by simp [split]
  have before : xs.toList.take l₁.length = l₁ := by rw [whole, List.take_left' rfl]
  have upToY : xs.toList.take (l₁.length + X.length + Y.length) = l₁ ++ X ++ Y := by
    rw [split, List.take_left' (by simp; omega)]
  have upToX : xs.toList.take (l₁.length + X.length) = l₁ ++ X := by
    rw [split, List.append_assoc _ Y, List.take_left' (by simp)]
  have after : xs.toList.drop (l₁.length + X.length + Y.length) = l₂ := by
    rw [split, List.drop_left' (by simp; omega)]
  unfold rotate
  rw [List.toList_toArray, before, upToY, upToX, after, List.drop_left' (by simp), List.drop_left' rfl]

/-- The rotation of a merge, taken under its guard, trades the places of two neighbouring blocks;
when the guard fails one of them is empty. -/
theorem rotate_guarded_split (xs : Array α) {l₁ X Y l₂ : List α} (split : xs.toList = l₁ ++ X ++ Y ++ l₂)
    {s m t : Nat} (hs : l₁.length = s) (hm : s + X.length = m) (ht : m + Y.length = t) :
    (if _ : (decide (s < m) && decide (m < t)) = true then rotate xs s m t else xs).toList =
      l₁ ++ Y ++ X ++ l₂ := by
  split
  case isTrue =>
    subst hs hm ht
    exact rotate_split xs split
  case isFalse guard =>
    simp only [Bool.and_eq_true, decide_eq_true_eq] at guard
    rw [split]
    rcases (by omega : X.length = 0 ∨ Y.length = 0) with empty | empty
    · simp [List.length_eq_zero_iff.1 empty]
    · simp [List.length_eq_zero_iff.1 empty]

theorem search_spec (test : Nat → Bool) (i j : Nat)
    (prefixClosed : ∀ h h', i ≤ h' → h' ≤ h → h < j → test h = true → test h' = true) :
    i ≤ search test i j ∧ (i ≤ j → search test i j ≤ j) ∧
      (∀ h, i ≤ h → h < search test i j → test h = true) ∧
      ∀ h, search test i j ≤ h → h < j → test h = false := by
  fun_induction search test i j with
  | case1 i j within mid passes found =>
    obtain ⟨low, high, before, after⟩ :=
      found fun h h' low h'h high holds => prefixClosed h h' (by omega) h'h high holds
    refine ⟨by omega, fun _ => high (by omega), fun h low' below => ?_, after⟩
    by_cases upper : mid + 1 ≤ h
    · exact before h upper below
    · exact prefixClosed mid h low' (by omega) (by omega) passes
  | case2 i j within mid fails found =>
    obtain ⟨low, high, before, after⟩ :=
      found fun h h' low h'h high holds => prefixClosed h h' low h'h (by omega) holds
    refine ⟨low, fun _ => by omega, before, fun h from_ below => ?_⟩
    by_cases lower : h < mid
    · exact after h from_ lower
    · cases holds : test h
      · rfl
      · exact absurd (prefixClosed h mid (by omega) (by omega) below holds) fails
  | case3 i j outside =>
    exact ⟨Nat.le_refl _, fun _ => by omega, fun h low below => absurd below (by omega),
      fun h low below => absurd below (by omega)⟩

end Blocks

section Order

variable (less : α → α → Bool) (P : α → Prop)

/-- `less` is a strict weak order on the values that satisfy `P`: of two such values at most one
is less than the other, and a value less than another is less than, or greater than, any third. -/
structure WeakOrderOn : Prop where
  asymm : ∀ {x y}, P x → P y → less x y = true → less y x = false
  negTrans : ∀ {x y z}, P x → P y → P z → less x z = true → less x y = true ∨ less y z = true

/-- `x` may stand before `y`: `y` is not less than `x`. -/
def Precedes (x y : α) : Prop := less y x = false

/-- No value of the list is less than one before it. -/
abbrev Ordered (l : List α) : Prop := l.Pairwise (Precedes less)

/-- `out` is `ys` with its ordered blocks `[a, m)` and `[m, b)` merged: an ordered permutation of
the two blocks stands in their place, and the rest of the array is as it was. -/
def Merges (ys : Array α) (a m b : Nat) (out : Array α) : Prop :=
  ∀ pre L R post, ys.toList = pre ++ L ++ R ++ post → pre.length = a → a + L.length = m →
    m + R.length = b → Ordered less L → Ordered less R → (∀ y ∈ L ++ R, P y) →
      ∃ M, out.toList = pre ++ M ++ post ∧ M.Perm (L ++ R) ∧ Ordered less M

variable {less P}

theorem Merges.self {ys : Array α} {a m b : Nat} (degenerate : a ≤ m → m ≤ b → a = m ∨ m = b) :
    Merges less P ys a m b ys := by
  intro pre L R post split hpre hL hR orderedL orderedR _
  refine ⟨L ++ R, by rw [split, List.append_assoc pre], .refl _, ?_⟩
  rcases degenerate (by omega) (by omega) with same | same
  · rw [List.length_eq_zero_iff.1 (by omega : L.length = 0), List.nil_append]
    exact orderedR
  · rw [List.length_eq_zero_iff.1 (by omega : R.length = 0), List.append_nil]
    exact orderedL

theorem Merges.dite {c : Prop} [Decidable c] {ys : Array α} {a m b : Nat} {merge : c → Array α}
    (merges : ∀ h, Merges less P ys a m b (merge h)) (degenerate : ¬c → a ≤ m → m ≤ b → a = m ∨ m = b) :
    Merges less P ys a m b (if h : c then merge h else ys) := by
  split
  case isTrue h => exact merges h
  case isFalse h => exact Merges.self (degenerate h)

variable (order : WeakOrderOn less P)
include order

theorem WeakOrderOn.precedes_of_less {x y : α} (hx : P x) (hy : P y) (lt : less x y = true) :
    Precedes less x y :=
  order.asymm hx hy lt

theorem WeakOrderOn.precedes_trans {x y z : α} (hx : P x) (hy : P y) (hz : P z)
    (xy : Precedes less x y) (yz : Precedes less y z) : Precedes less x z := by
  unfold Precedes at *
  cases zx : less z x
  · rfl
  · rcases order.negTrans hz hy hx zx with zy | yx
    · rw [yz] at zy; cases zy
    · rw [xy] at yx; cases yx

theorem WeakOrderOn.irrefl {x : α} (hx : P x) : less x x = false := by
  cases self : less x x
  · rfl
  · rw [order.asymm hx hx self] at self
    cases self

theorem WeakOrderOn.less_of_precedes_of_less {w z x : α} (hw : P w) (hz : P z) (hx : P x)
    (wz : Precedes less w z) (zx : less z x = true) : less w x = true := by
  rcases order.negTrans hz hw hx zx with zw | wx
  · rw [wz] at zw
    cases zw
  · exact wx

theorem WeakOrderOn.not_less_of_precedes {x x' y y' : α} (hx : P x) (hx' : P x') (hy : P y) (hy' : P y')
    (xx' : Precedes less x x') (y'y : Precedes less y' y) (apart : less y' x' = false) : less y x = false := by
  cases yx : less y x
  · rfl
  · rcases order.negTrans hy hx' hx yx with yx' | x'x
    · rcases order.negTrans hy hy' hx' yx' with yy' | y'x'
      · rw [y'y] at yy'
        cases yy'
      · rw [apart] at y'x'
        cases y'x'
    · rw [xx'] at x'x
      cases x'x

theorem Ordered.precedes_getElem {l : List α} (ordered : Ordered less l) (inl : ∀ z ∈ l, P z) {i j : Nat}
    (ij : i ≤ j) (hj : j < l.length) : Precedes less (l.get ⟨i, by omega⟩) l[j] := by
  rcases Nat.lt_or_eq_of_le ij with lt | rfl
  · exact List.pairwise_iff_getElem.1 ordered i j (by omega) hj lt
  · exact order.irrefl (inl _ (List.getElem_mem _))

/-- Two ordered lists cross in order when the last value of the first precedes the first value of
the second. -/
theorem Ordered.cross {X Y : List α} (orderedX : Ordered less X) (orderedY : Ordered less Y)
    (inX : ∀ z ∈ X, P z) (inY : ∀ z ∈ Y, P z)
    (boundary : ∀ (hX : X ≠ []) (hY : Y ≠ []), Precedes less (X.getLast hX) (Y.head hY)) :
    ∀ x ∈ X, ∀ y ∈ Y, Precedes less x y := by
  intro x memberX y memberY
  have hX := List.ne_nil_of_mem memberX
  have hY := List.ne_nil_of_mem memberY
  obtain ⟨i, hi, rfl⟩ := List.mem_iff_getElem.1 memberX
  obtain ⟨j, hj, rfl⟩ := List.mem_iff_getElem.1 memberY
  have toLast := Ordered.precedes_getElem order orderedX inX (Nat.le_sub_one_of_lt hi) (by omega)
  have fromHead := Ordered.precedes_getElem order orderedY inY (Nat.zero_le j) hj
  rw [List.get_eq_getElem, ← List.getLast_eq_getElem hX] at toLast
  rw [List.get_eq_getElem, ← List.head_eq_getElem hY] at fromHead
  exact order.precedes_trans (inX _ (List.getElem_mem _)) (inX _ (List.getLast_mem hX)) (inY _ (List.getElem_mem _))
    toLast (order.precedes_trans (inX _ (List.getLast_mem hX)) (inY _ (List.head_mem hY))
      (inY _ (List.getElem_mem _)) (boundary hX hY) fromHead)

/-- Two ordered lists cut so that the last value kept from the first precedes the first value
dropped from the second: every value kept precedes every value dropped. -/
theorem Ordered.cross_cut {X Y : List α} (orderedX : Ordered less X) (orderedY : Ordered less Y)
    (inX : ∀ z ∈ X, P z) (inY : ∀ z ∈ Y, P z) {i j : Nat} (fits : i ≤ X.length)
    (boundary : ∀ (low : 0 < i) (inside : j < Y.length), Precedes less X[i - 1] Y[j]) :
    ∀ x ∈ X.take i, ∀ y ∈ Y.drop j, Precedes less x y := by
  refine Ordered.cross order (orderedX.sublist (List.take_sublist _ _)) (orderedY.sublist (List.drop_sublist _ _))
    (fun z member => inX z (List.mem_of_mem_take member)) (fun z member => inY z (List.mem_of_mem_drop member))
    fun nonemptyX nonemptyY => ?_
  have cutX := List.length_pos_of_ne_nil nonemptyX
  have cutY := List.length_pos_of_ne_nil nonemptyY
  rw [List.length_take] at cutX
  rw [List.length_drop] at cutY
  rw [List.getLast_eq_getElem, List.getElem_take, List.head_drop]
  simpa [show min i X.length = i by omega] using boundary (by omega) (by omega)

omit order in
/-- Trading the inner parts of two ordered blocks `A ++ C` and `D ++ B` and ordering each half
gives an ordered block of the same values, when `A` precedes `B` and `D` precedes `C`. -/
theorem Ordered.trade {A C D B M₁ M₂ : List α} (orderedL : Ordered less (A ++ C))
    (orderedR : Ordered less (D ++ B)) (crossAB : ∀ x ∈ A, ∀ y ∈ B, Precedes less x y)
    (crossDC : ∀ x ∈ D, ∀ y ∈ C, Precedes less x y) (perm₁ : M₁.Perm (A ++ D)) (perm₂ : M₂.Perm (C ++ B))
    (ordered₁ : Ordered less M₁) (ordered₂ : Ordered less M₂) :
    (M₁ ++ M₂).Perm (A ++ C ++ (D ++ B)) ∧ Ordered less (M₁ ++ M₂) := by
  have crossAC := (List.pairwise_append.1 orderedL).2.2
  have crossDB := (List.pairwise_append.1 orderedR).2.2
  refine ⟨?_, List.pairwise_append.2 ⟨ordered₁, ordered₂, ?_⟩⟩
  · -- the middle parts trade places back
    calc List.Perm (M₁ ++ M₂) (A ++ D ++ (C ++ B)) := perm₁.append perm₂
      _ = A ++ (D ++ (C ++ B)) := List.append_assoc _ _ _
      List.Perm _ (A ++ (C ++ (D ++ B))) := (List.perm_append_comm_assoc D C B).append_left A
      _ = A ++ C ++ (D ++ B) := (List.append_assoc _ _ _).symm
  · intro x inM₁ y inM₂
    rcases List.mem_append.1 (perm₁.mem_iff.1 inM₁) with inA | inD <;>
      rcases List.mem_append.1 (perm₂.mem_iff.1 inM₂) with inC | inB
    · exact crossAC x inA y inC
    · exact crossAB x inA y inB
    · exact crossDC x inD y inC
    · exact crossDB x inD y inB

end Order

section Insertion

variable [Inhabited α] {less : α → α → Bool} {P : α → Prop} (order : WeakOrderOn less P)

theorem sink_self (xs : Array α) (a : Nat) : sink less xs a a = xs := by
  cases a with
  | zero => rfl
  | succ j =>
    have stops : ¬j + 1 ≤ j := by omega
    simp [sink, stops]

include order in
/-- Sinking the value after an ordered block moves it left past the values it is less than: the
block splits in two around it, and the whole stays ordered. -/
theorem sink_spec : ∀ (n : Nat) (xs : Array α) (pre S post : List α) (x : α),
    xs.toList = pre ++ S ++ x :: post → S.length = n → Ordered less S → (∀ y ∈ S, P y) → P x →
      ∃ S₁ S₂, S = S₁ ++ S₂ ∧ (sink less xs pre.length (pre.length + n)).toList = pre ++ (S₁ ++ x :: S₂) ++ post ∧
        Ordered less (S₁ ++ x :: S₂)
  | 0, xs, pre, S, post, x, split, length, _, _, _ => by
    rw [List.length_eq_zero_iff.1 length] at split
    refine ⟨[], [], by simp [List.length_eq_zero_iff.1 length], by rw [Nat.add_zero, sink_self, split]; simp,
      List.pairwise_singleton _ _⟩
  | k + 1, xs, pre, S, post, x, split, length, ordered, inS, hx => by
    rcases List.eq_nil_or_concat S with rfl | ⟨S', y, rfl⟩
    · cases length
    rw [List.concat_eq_append] at split ordered inS ⊢
    have shorter : S'.length = k := by simpa using length
    have atX : xs[pre.length + (k + 1)]! = x := by
      have cut : xs.toList = (pre ++ S' ++ [y]) ++ x :: post := by rw [split]; simp
      have atX := getElem!_split cut (i := 0) (by simp)
      simpa [shorter, Nat.add_assoc] using atX
    have atY : xs[pre.length + k]! = y := by
      have cut : xs.toList = (pre ++ S') ++ y :: x :: post := by rw [split]; simp
      have atY := getElem!_split cut (i := 0) (by simp)
      simpa [shorter] using atY
    have hy : P y := inS y (by simp)
    have before : ∀ z ∈ S', Precedes less z y := fun z member =>
      (List.pairwise_append.1 ordered).2.2 z member y (List.mem_singleton_self y)
    rw [show pre.length + (k + 1) = pre.length + k + 1 by omega] at atX ⊢
    rw [sink]
    cases lt : less x y
    · -- `x` is not less than `y`, so it stays after the block
      have cond : (decide (pre.length ≤ pre.length + k) && less xs[pre.length + k + 1]! xs[pre.length + k]!) = false := by
        simp [atX, atY, lt]
      rw [if_neg (by rw [cond]; exact Bool.false_ne_true)]
      refine ⟨S' ++ [y], [], by simp, by rw [split]; simp, ?_⟩
      refine List.pairwise_append.2 ⟨ordered, List.pairwise_singleton _ _, fun z member x' same => ?_⟩
      rw [List.mem_singleton.1 same]
      rcases List.mem_append.1 member with inner | last
      · exact order.precedes_trans (inS z (by simp [inner])) hy hx (before z inner) lt
      · rw [List.mem_singleton.1 last]
        exact lt
    · -- `x` is less than `y`: they trade places and `x` sinks on past `S'`
      have cond : (decide (pre.length ≤ pre.length + k) && less xs[pre.length + k + 1]! xs[pre.length + k]!) = true := by
        simp [atX, atY, lt]
      rw [if_pos cond]
      have cut : xs.toList = (pre ++ S') ++ y :: x :: post := by rw [split]; simp
      have swapped := swapIfInBounds_split cut
      simp only [List.length_append, shorter] at swapped
      obtain ⟨S₁, S₂, rfl, sunk, sunkOrdered⟩ := sink_spec k _ pre S' (y :: post) x
        swapped shorter (List.pairwise_append.1 ordered).1
        (fun z member => inS z (by simp [member])) hx
      refine ⟨S₁, S₂ ++ [y], by simp, by rw [sunk]; simp, ?_⟩
      rw [← List.cons_append, ← List.append_assoc]
      refine List.pairwise_append.2 ⟨sunkOrdered, List.pairwise_singleton _ _, fun z member y' same => ?_⟩
      rw [List.mem_singleton.1 same]
      rcases List.mem_append.1 member with first | middle
      · exact before z (by simp [first])
      · rcases List.mem_cons.1 middle with rfl | second
        · exact order.precedes_of_less hx hy lt
        · exact before z (by simp [second])

include order in
/-- Insertion sort orders the block it is given and leaves the rest of the array as it is. -/
theorem insertionSort_spec (xs : Array α) (pre B post : List α) (split : xs.toList = pre ++ B ++ post)
    (inB : ∀ y ∈ B, P y) :
    ∃ M, (insertionSort less xs pre.length (pre.length + B.length)).toList = pre ++ M ++ post ∧
      M.Perm B ∧ Ordered less M := by
  cases B with
  | nil => exact ⟨[], by simp [insertionSort, split], .refl _, List.Pairwise.nil⟩
  | cons first rest =>
    -- after `k` insertions, the first `k + 1` values of the block are in order
    have inserted : ∀ k ≤ rest.length, ∃ M,
        ((List.range' (pre.length + 1) k).foldl (fun xs i => sink less xs pre.length i) xs).toList =
          pre ++ M ++ rest.drop k ++ post ∧ M.Perm (first :: rest.take k) ∧ Ordered less M := by
      intro k
      induction k with
      | zero => exact fun _ => ⟨[first], by simp [split], by simp, List.pairwise_singleton _ _⟩
      | succ k inductionHypothesis =>
        intro within
        obtain ⟨M, current, perm, ordered⟩ := inductionHypothesis (by omega)
        have cut : rest.drop k = rest[k] :: rest.drop (k + 1) := List.drop_eq_getElem_cons (by omega)
        have inM : ∀ y ∈ M, P y := fun y member => by
          rcases List.mem_cons.1 (perm.mem_iff.1 member) with rfl | later
          · exact inB y (.head _)
          · exact inB y (.tail _ (List.mem_of_mem_take later))
        obtain ⟨S₁, S₂, rfl, sunk, sunkOrdered⟩ := sink_spec order (k + 1)
          ((List.range' (pre.length + 1) k).foldl (fun xs i => sink less xs pre.length i) xs) pre M (rest.drop (k + 1) ++ post)
          rest[k] (by rw [current, cut]; simp only [List.append_assoc, List.cons_append]) (by rw [perm.length_eq]; simp; omega) ordered inM
          (inB _ (.tail _ (List.getElem_mem _)))
        refine ⟨S₁ ++ rest[k] :: S₂, ?_, ?_, sunkOrdered⟩
        · rw [List.range'_concat, List.foldl_append, List.foldl_cons, List.foldl_nil,
            show pre.length + 1 + 1 * k = pre.length + (k + 1) by omega, sunk]
          simp
        · rw [List.take_succ_eq_append_getElem (by omega)]
          -- the value inserted moves to the front, then back to the end of the first values
          exact List.perm_middle.trans ((perm.cons _).trans
            ((List.perm_append_singleton _ _).cons first |>.trans (List.Perm.swap _ _ _)).symm)
    obtain ⟨M, sorted, perm, ordered⟩ := inserted rest.length (Nat.le_refl _)
    refine ⟨M, ?_, by simpa using perm, ordered⟩
    unfold insertionSort
    rw [show pre.length + (first :: rest).length - (pre.length + 1) = rest.length by simp; omega, sorted]
    simp

end Insertion

section Merging

variable [Inhabited α] {less : α → α → Bool} {P : α → Prop} (order : WeakOrderOn less P)
include order

omit [Inhabited α] order in
theorem ordered_insert {R : List α} {x : α} {k : Nat} (ordered : Ordered less R)
    (before : ∀ t ∈ R.take k, Precedes less t x) (after : ∀ u ∈ R.drop k, Precedes less x u) :
    Ordered less (R.take k ++ x :: R.drop k) := by
  rw [← List.take_append_drop k R] at ordered
  replace ordered := List.pairwise_append.1 ordered
  refine List.pairwise_append.2 ⟨ordered.1, List.pairwise_cons.2 ⟨after, ordered.2.1⟩, fun t first z second => ?_⟩
  rcases List.mem_cons.1 second with rfl | later
  · exact before t first
  · exact ordered.2.2 t first z later

/-- Where a merge inserts a single value in front of an ordered block: after the values less
than it. -/
theorem insertion_point_front (xs : Array α) (pre R post : List α) (x : α)
    (split : xs.toList = pre ++ [x] ++ R ++ post) (ordered : Ordered less R) (inR : ∀ z ∈ R, P z) (hx : P x) :
    ∃ k ≤ R.length,
      search (fun h => less xs[h]! xs[pre.length]!) (pre.length + 1) (pre.length + 1 + R.length) = pre.length + 1 + k ∧
        (∀ t ∈ R.take k, Precedes less t x) ∧ ∀ u ∈ R.drop k, Precedes less x u := by
  have atX : xs[pre.length]! = x := by
    have cut : xs.toList = pre ++ [x] ++ (R ++ post) := by rw [split]; simp
    simpa using getElem!_block cut (j := 0) (by simp)
  have atR : ∀ j (hj : j < R.length), xs[pre.length + 1 + j]! = R[j] := fun j hj => by
    simpa using getElem!_block split hj
  obtain ⟨low, high, before, after⟩ := search_spec (fun h => less xs[h]! xs[pre.length]!) (pre.length + 1)
    (pre.length + 1 + R.length) fun h h' low h'h high holds => by
      obtain ⟨j, rfl⟩ : ∃ j, h = pre.length + 1 + j := ⟨h - (pre.length + 1), by omega⟩
      obtain ⟨j', rfl⟩ : ∃ j', h' = pre.length + 1 + j' := ⟨h' - (pre.length + 1), by omega⟩
      rw [atX, atR j (by omega)] at holds
      rw [atX, atR j' (by omega)]
      exact order.less_of_precedes_of_less (inR _ (List.getElem_mem _)) (inR _ (List.getElem_mem _)) hx
        (Ordered.precedes_getElem order ordered inR (by omega) (by omega)) holds
  generalize search (fun h => less xs[h]! xs[pre.length]!) (pre.length + 1) (pre.length + 1 + R.length) = i
    at low high before after ⊢
  refine ⟨i - (pre.length + 1), by omega, by omega, fun t member => ?_, fun u member => ?_⟩
  · obtain ⟨j, hj, rfl⟩ := List.mem_iff_getElem.1 member
    have less_ := before (pre.length + 1 + j) (by omega) (by simp at hj; omega)
    rw [atX, atR j (by simp at hj; omega)] at less_
    rw [List.getElem_take]
    exact order.precedes_of_less (inR _ (List.getElem_mem _)) hx less_
  · obtain ⟨j, hj, rfl⟩ := List.mem_iff_getElem.1 member
    have notLess := after (pre.length + 1 + (i - (pre.length + 1) + j)) (by omega) (by simp at hj; omega)
    rw [atX, atR _ (by simp at hj; omega)] at notLess
    rw [List.getElem_drop]
    exact notLess

/-- Where a merge inserts a single value after an ordered block: before the values it is less
than. -/
theorem insertion_point_back (xs : Array α) (pre L post : List α) (y : α)
    (split : xs.toList = pre ++ L ++ [y] ++ post) (ordered : Ordered less L) (inL : ∀ z ∈ L, P z) (hy : P y) :
    ∃ k ≤ L.length,
      search (fun h => !less xs[pre.length + L.length]! xs[h]!) pre.length (pre.length + L.length) = pre.length + k ∧
        (∀ t ∈ L.take k, Precedes less t y) ∧ ∀ u ∈ L.drop k, Precedes less y u := by
  have atY : xs[pre.length + L.length]! = y := by
    simpa using getElem!_block split (j := 0) (by simp)
  have atL : ∀ j (hj : j < L.length), xs[pre.length + j]! = L[j] := fun j hj =>
    getElem!_block (show xs.toList = pre ++ L ++ ([y] ++ post) by rw [split]; simp) hj
  obtain ⟨low, high, before, after⟩ := search_spec (fun h => !less xs[pre.length + L.length]! xs[h]!) pre.length
    (pre.length + L.length) fun h h' low h'h high holds => by
      obtain ⟨j, rfl⟩ : ∃ j, h = pre.length + j := ⟨h - pre.length, by omega⟩
      obtain ⟨j', rfl⟩ : ∃ j', h' = pre.length + j' := ⟨h' - pre.length, by omega⟩
      rw [atY, atL j (by omega), Bool.not_eq_true'] at holds
      rw [atY, atL j' (by omega), Bool.not_eq_true']
      exact order.not_less_of_precedes (inL _ (List.getElem_mem _)) (inL _ (List.getElem_mem _)) hy hy
        (Ordered.precedes_getElem order ordered inL (by omega) (by omega)) (order.irrefl hy) holds
  generalize search (fun h => !less xs[pre.length + L.length]! xs[h]!) pre.length (pre.length + L.length) = i
    at low high before after ⊢
  refine ⟨i - pre.length, by omega, by omega, fun t member => ?_, fun u member => ?_⟩
  · obtain ⟨j, hj, rfl⟩ := List.mem_iff_getElem.1 member
    have notLess := before (pre.length + j) (by omega) (by simp at hj; omega)
    rw [atY, atL j (by simp at hj; omega), Bool.not_eq_true'] at notLess
    rw [List.getElem_take]
    exact notLess
  · obtain ⟨j, hj, rfl⟩ := List.mem_iff_getElem.1 member
    have less_ := after (pre.length + (i - pre.length + j)) (by omega) (by simp at hj; omega)
    rw [atY, atL _ (by simp at hj; omega), Bool.not_eq_false'] at less_
    rw [List.getElem_drop]
    exact order.precedes_of_less hy (inL _ (List.getElem_mem _)) less_

/-- Where the general merge cuts its blocks. The search runs along the antidiagonal of the two
blocks, so `start` cuts `L` and `stop` cuts `R` where every value of `L` before the cut precedes
every value of `R` after its cut, and every value of `R` before its cut precedes every value of
`L` after the cut. -/
theorem split_point (xs : Array α) {a m b start₀ r start stop : Nat}
    (branch : (if m > (a + b) / 2 then ((a + b) / 2 + m - b, (a + b) / 2) else (a, m)) = (start₀, r))
    (found : search (fun c => !less xs[(a + b) / 2 + m - 1 - c]! xs[c]!) start₀ r = start)
    (across : (a + b) / 2 + m - start = stop)
    (pre L R post : List α) (split : xs.toList = pre ++ L ++ R ++ post) (hpre : pre.length = a)
    (hL : a + L.length = m) (hR : m + R.length = b) (orderedL : Ordered less L) (orderedR : Ordered less R)
    (inLR : ∀ y ∈ L ++ R, P y) :
    a ≤ start ∧ start ≤ m ∧ m ≤ stop ∧ stop ≤ b ∧ start + stop = (a + b) / 2 + m ∧
      (∀ x ∈ L.take (start - a), ∀ y ∈ R.drop (stop - m), Precedes less x y) ∧
      ∀ x ∈ R.take (stop - m), ∀ y ∈ L.drop (start - a), Precedes less x y := by
  have halves : 2 * ((a + b) / 2) ≤ a + b ∧ a + b ≤ 2 * ((a + b) / 2) + 1 := by omega
  generalize (a + b) / 2 = mid at branch found across halves ⊢
  -- the search runs from `start₀` to `r`, pairing `c` in `L` with `mid + m - 1 - c` in `R`
  have range : a ≤ start₀ ∧ start₀ ≤ r ∧ r ≤ m ∧ r ≤ mid ∧ mid + m - start₀ ≤ b := by
    split at branch <;> obtain ⟨rfl, rfl⟩ := Prod.mk.inj branch <;> omega
  have inL : ∀ z ∈ L, P z := fun z member => inLR z (List.mem_append_left R member)
  have inR : ∀ z ∈ R, P z := fun z member => inLR z (List.mem_append_right L member)
  have atL : ∀ c (low : a ≤ c) (high : c < m), xs[c]! = L[c - a] := fun c low high => by
    have := getElem!_block (show xs.toList = pre ++ L ++ (R ++ post) by rw [split]; simp) (j := c - a) (by omega)
    rwa [hpre, Nat.add_sub_cancel' low] at this
  have atR : ∀ c (low : m ≤ c) (high : c < b), xs[c]! = R[c - m] := fun c low high => by
    have := getElem!_block split (j := c - m) (by omega)
    rwa [List.length_append, hpre, hL, Nat.add_sub_cancel' low] at this
  -- the test holds on a prefix: moving left in `L` and right in `R` keeps it holding
  obtain ⟨low, high, before, after⟩ := search_spec (fun c => !less xs[mid + m - 1 - c]! xs[c]!) start₀ r
    fun h h' low h'h high holds => by
      rw [Bool.not_eq_true', atL h (by omega) (by omega), atR (mid + m - 1 - h) (by omega) (by omega)] at holds
      rw [Bool.not_eq_true', atL h' (by omega) (by omega), atR (mid + m - 1 - h') (by omega) (by omega)]
      exact order.not_less_of_precedes (inL _ (List.getElem_mem _)) (inL _ (List.getElem_mem _))
        (inR _ (List.getElem_mem _)) (inR _ (List.getElem_mem _))
        (Ordered.precedes_getElem order orderedL inL (by omega) (by omega))
        (Ordered.precedes_getElem order orderedR inR (by omega) (by omega)) holds
  rw [found] at low high before after
  have upTo := high range.2.1
  refine ⟨by omega, by omega, by omega, by omega, by omega, ?_, ?_⟩
  · -- the pair just before the cut passed the test
    refine Ordered.cross_cut order orderedL orderedR inL inR (by omega) fun cutA cutB => ?_
    have startEnds : start₀ = a ∨ mid + m - start₀ = b := by
      split at branch <;> obtain ⟨rfl, rfl⟩ := Prod.mk.inj branch <;> omega
    have passes := before (start - 1) (by omega) (by omega)
    rw [Bool.not_eq_true', atL (start - 1) (by omega) (by omega),
      atR (mid + m - 1 - (start - 1)) (by omega) (by omega)] at passes
    simpa [Precedes, show mid + m - 1 - (start - 1) - m = stop - m by omega,
      show start - 1 - a = start - a - 1 by omega] using passes
  · -- the pair at the cut failed the test
    refine Ordered.cross_cut order orderedR orderedL inR inL (by omega) fun cutD cutC => ?_
    have rEnds : r = m ∨ mid + m - r = m := by
      split at branch <;> obtain ⟨rfl, rfl⟩ := Prod.mk.inj branch <;> omega
    have fails := after start (Nat.le_refl _) (by omega)
    rw [Bool.not_eq_false', atL start (by omega) (by omega), atR (mid + m - 1 - start) (by omega) (by omega)] at fails
    have lastD : mid + m - 1 - start - m = stop - m - 1 := by omega
    simp only [lastD] at fails
    exact order.precedes_of_less (inR _ (List.getElem_mem _)) (inL _ (List.getElem_mem _)) fails

omit [Inhabited α] order in
/-- The general merge: cutting both blocks at a split point, trading the inner parts and merging
each half merges the two blocks. -/
theorem Merges.halves {xs rotated merged out : Array α} {a m b mid start stop : Nat}
    (first : Merges less P rotated a start mid merged) (second : Merges less P merged mid stop b out)
    (rotation : ∀ l₁ X Y l₂, xs.toList = l₁ ++ X ++ Y ++ l₂ → l₁.length = start → start + X.length = m →
      m + Y.length = stop → rotated.toList = l₁ ++ Y ++ X ++ l₂)
    (splitPoint : ∀ pre L R post, xs.toList = pre ++ L ++ R ++ post → pre.length = a → a + L.length = m →
      m + R.length = b → Ordered less L → Ordered less R → (∀ y ∈ L ++ R, P y) →
        a ≤ start ∧ start ≤ m ∧ m ≤ stop ∧ stop ≤ b ∧ start + stop = mid + m ∧
          (∀ x ∈ L.take (start - a), ∀ y ∈ R.drop (stop - m), Precedes less x y) ∧
          ∀ x ∈ R.take (stop - m), ∀ y ∈ L.drop (start - a), Precedes less x y) :
    Merges less P xs a m b out := by
  intro pre L R post split hpre hL hR orderedL orderedR inLR
  obtain ⟨low, belowM, aboveM, belowB, sum, crossAB, crossDC⟩ :=
    splitPoint pre L R post split hpre hL hR orderedL orderedR inLR
  -- name the four parts: `L = A ++ C` and `R = D ++ B`
  have lengthA : (L.take (start - a)).length = start - a := by simp; omega
  have lengthD : (R.take (stop - m)).length = stop - m := by simp; omega
  have cutL := List.take_append_drop (start - a) L
  have cutR := List.take_append_drop (stop - m) R
  generalize L.take (start - a) = A at lengthA cutL crossAB
  generalize L.drop (start - a) = C at cutL crossDC
  generalize R.take (stop - m) = D at lengthD cutR crossDC
  generalize R.drop (stop - m) = B at cutR crossAB
  subst cutL cutR
  simp only [List.length_append] at hL hR
  obtain ⟨orderedA, orderedC, -⟩ := List.pairwise_append.1 orderedL
  obtain ⟨orderedD, orderedB, -⟩ := List.pairwise_append.1 orderedR
  have within : ∀ y ∈ A ++ C ++ (D ++ B), P y := inLR
  -- the rotation makes `A ++ D ++ C ++ B`, and each half is merged in turn
  have rotatedSplit := rotation (pre ++ A) C D (B ++ post) (by rw [split]; simp) (by simp; omega) (by omega)
    (by omega)
  obtain ⟨M₁, firstMerged, perm₁, ordered₁⟩ := first pre A D (C ++ B ++ post) (by rw [rotatedSplit]; simp)
    hpre (by omega) (by omega) orderedA orderedD
    (fun y member => within y (by simp only [List.mem_append] at member ⊢; tauto))
  obtain ⟨M₂, secondMerged, perm₂, ordered₂⟩ := second (pre ++ M₁) C B post (by rw [firstMerged]; simp)
    (by simp [perm₁.length_eq]; omega) (by omega) (by omega) orderedC orderedB
    (fun y member => within y (by simp only [List.mem_append] at member ⊢; tauto))
  exact ⟨M₁ ++ M₂, by rw [secondMerged]; simp,
    Ordered.trade orderedL orderedR crossAB crossDC perm₁ perm₂ ordered₁ ordered₂⟩

/-- The symmetric merge merges two neighbouring ordered blocks into one ordered block holding the
same values, and leaves the rest of the array as it is. -/
theorem symMerge_spec (xs : Array α) (a m b : Nat) : Merges less P xs a m b (symMerge less xs a m b) := by
  fun_induction symMerge less xs a m b with
  | case1 xs a m b single i inserted =>
    intro pre L R post split hpre hL hR orderedL orderedR inLR
    obtain ⟨x, rfl⟩ : ∃ x, L = [x] := List.length_eq_one_iff.1 (by omega)
    subst hpre hL hR
    obtain ⟨k, within, found, before, after⟩ := insertion_point_front order xs pre R post x split orderedR
      (fun z member => inLR z (by simp [member])) (inLR x (by simp))
    have atI : i = pre.length + 1 + k := found
    have cut : xs.toList = pre ++ [x] ++ R.take k ++ (R.drop k ++ post) := by
      rw [split]; simp only [List.append_assoc]; rw [← List.append_assoc (R.take k), List.take_append_drop]
    have rotated := rotate_split xs cut
    simp only [List.length_singleton, List.length_take, Nat.min_eq_left within] at rotated
    have moved : (R.take k ++ x :: R.drop k).Perm (x :: R) := by
      simpa using (List.perm_middle : (R.take k ++ x :: R.drop k).Perm (x :: (R.take k ++ R.drop k)))
    refine ⟨R.take k ++ x :: R.drop k, ?_, moved, ordered_insert orderedR before after⟩
    rw [atI, rotated]
    simp
  | case2 xs a m b single i stays =>
    intro pre L R post split hpre hL hR orderedL orderedR inLR
    obtain ⟨x, rfl⟩ : ∃ x, L = [x] := List.length_eq_one_iff.1 (by omega)
    subst hpre hL hR
    obtain ⟨k, within, found, before, after⟩ := insertion_point_front order xs pre R post x split orderedR
      (fun z member => inLR z (by simp [member])) (inLR x (by simp))
    have atI : i = pre.length + 1 + k := found
    obtain rfl : k = 0 := by omega
    have ordered := ordered_insert orderedR before after
    simp only [List.take_zero, List.drop_zero, List.nil_append] at ordered
    exact ⟨x :: R, by rw [split]; simp, .refl _, ordered⟩
  | case3 xs a m b notSingle single i inserted =>
    intro pre L R post split hpre hL hR orderedL orderedR inLR
    obtain ⟨y, rfl⟩ : ∃ y, R = [y] := List.length_eq_one_iff.1 (by omega)
    subst hpre hL hR
    obtain ⟨k, within, found, before, after⟩ := insertion_point_back order xs pre L post y split orderedL
      (fun z member => inLR z (by simp [member])) (inLR y (by simp))
    have atI : i = pre.length + k := found
    have cut : xs.toList = (pre ++ L.take k) ++ L.drop k ++ [y] ++ post := by
      rw [split]; simp only [List.append_assoc]; rw [← List.append_assoc (L.take k), List.take_append_drop]
    have rotated := rotate_split xs cut
    simp only [List.length_append, List.length_singleton, List.length_take, List.length_drop,
      Nat.min_eq_left within, show pre.length + k + (L.length - k) = pre.length + L.length by omega] at rotated
    have moved : (L.take k ++ y :: L.drop k).Perm (L ++ [y]) := by
      simpa using (List.perm_middle : (L.take k ++ y :: L.drop k).Perm (y :: (L.take k ++ L.drop k))).trans
        (List.perm_append_singleton _ _).symm
    refine ⟨L.take k ++ y :: L.drop k, ?_, moved, ordered_insert orderedL before after⟩
    rw [atI, rotated]
    simp
  | case4 xs a m b notSingle single i stays =>
    intro pre L R post split hpre hL hR orderedL orderedR inLR
    obtain ⟨y, rfl⟩ : ∃ y, R = [y] := List.length_eq_one_iff.1 (by omega)
    subst hpre hL hR
    obtain ⟨k, within, found, before, after⟩ := insertion_point_back order xs pre L post y split orderedL
      (fun z member => inLR z (by simp [member])) (inLR y (by simp))
    have atI : i = pre.length + k := found
    obtain rfl : k = L.length := by omega
    have ordered := ordered_insert orderedL before after
    simp only [List.take_length, List.drop_length] at ordered
    exact ⟨L ++ [y], by rw [split]; simp, .refl _, ordered⟩
  | case5 xs a m b _ _ mid n start₀ r branch start stop rotated merged _ left _ right =>
    exact Merges.halves (Merges.dite left fun unmerged _ _ => by omega) right
      (fun _ _ _ _ split hs hm ht => rotate_guarded_split xs split hs hm ht) (split_point order xs branch rfl rfl)
  | case6 xs a m b _ _ mid n start₀ r branch start stop rotated merged unmerged left =>
    exact Merges.halves (Merges.dite left fun unmerged _ _ => by omega) (Merges.self fun _ _ => by omega)
      (fun _ _ _ _ split hs hm ht => rotate_guarded_split xs split hs hm ht) (split_point order xs branch rfl rfl)

end Merging

end MarketData.Sorting
