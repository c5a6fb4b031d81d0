import Mathlib
import MarketData.Failure

/-!
# Results that may fail

Readers and writers return `Except`: a bind succeeds exactly when both steps do, a `mapM`
succeeds exactly when every element does and gives their results in order, and the first
failure is the one reported. Proofs peel a computation apart with these lemmas instead of
unfolding `bind`.
-/

namespace MarketData

section Except

variable {ε α β : Type}

@[simp] theorem error_bind (e : ε) (f : α → Except ε β) : (Except.error e >>= f) = .error e := rfl

@[simp] theorem ok_bind (a : α) (f : α → Except ε β) : (Except.ok a >>= f) = f a := rfl

@[simp] theorem pure_eq_ok {a b : α} : (pure a : Except ε α) = .ok b ↔ a = b :=
  ⟨fun wrote => by cases wrote; rfl, fun same => by rw [same]; rfl⟩

@[simp] theorem pure_eq_error {a : α} {e : ε} : (pure a : Except ε α) = .error e ↔ False := by
  constructor
  · intro wrote
    cases wrote
  · exact False.elim

theorem bind_eq_ok {x : Except ε α} {f : α → Except ε β} {b : β} :
    x >>= f = .ok b ↔ ∃ a, x = .ok a ∧ f a = .ok b := by
  cases x <;> simp

theorem bind_eq_error {x : Except ε α} {f : α → Except ε β} {e : ε} :
    x >>= f = .error e ↔ x = .error e ∨ ∃ a, x = .ok a ∧ f a = .error e := by
  cases x <;> simp

theorem mapM_eq_ok {g : α → Except ε β} :
    ∀ {xs : List α} {ys : List β}, xs.mapM g = .ok ys ↔ List.Forall₂ (fun x y => g x = .ok y) xs ys
  | [], ys => by
    rw [List.mapM_nil, List.forall₂_nil_left_iff]
    exact ⟨fun wrote => by cases wrote; rfl, fun empty => by rw [empty]; rfl⟩
  | x :: xs, ys => by
    rw [List.mapM_cons, bind_eq_ok]
    constructor
    · rintro ⟨y, first, wrote⟩
      obtain ⟨zs, rest, gave⟩ := bind_eq_ok.1 wrote
      cases gave
      exact List.Forall₂.cons first (mapM_eq_ok.1 rest)
    · intro written
      cases written with
      | cons first rest => exact ⟨_, first, bind_eq_ok.2 ⟨_, mapM_eq_ok.2 rest, rfl⟩⟩

theorem mapM_eq_error {g : α → Except ε β} :
    ∀ {xs : List α} {e : ε}, xs.mapM g = .error e → ∃ x ∈ xs, g x = .error e
  | [], _, refused => nomatch refused
  | x :: xs, _, refused => by
    rw [List.mapM_cons, bind_eq_error] at refused
    rcases refused with first | ⟨_, _, refused⟩
    · exact ⟨x, .head _, first⟩
    · rcases bind_eq_error.1 refused with rest | ⟨_, _, refused⟩
      · obtain ⟨y, member, wrote⟩ := mapM_eq_error rest
        exact ⟨y, .tail _ member, wrote⟩
      · cases refused

theorem mapM_isOk {g : α → Except ε β} {P : α → Prop} (each : ∀ x, (∃ y, g x = .ok y) ↔ P x) :
    ∀ {xs : List α}, (∃ ys, xs.mapM g = .ok ys) ↔ ∀ x ∈ xs, P x
  | [] => ⟨fun _ _ member => (nomatch member), fun _ => ⟨[], rfl⟩⟩
  | x :: xs => by
    rw [List.forall_mem_cons, ← each x, ← mapM_isOk each]
    simp only [List.mapM_cons, bind_eq_ok]
    constructor
    · rintro ⟨_, y, first, ys, rest, _⟩
      exact ⟨⟨y, first⟩, ⟨ys, rest⟩⟩
    · rintro ⟨⟨y, first⟩, ⟨ys, rest⟩⟩
      exact ⟨_, y, first, ys, rest, rfl⟩

theorem forall₂_eq_map {P : α → Prop} {h : α → β} :
    ∀ {xs : List α} {ys : List β},
      List.Forall₂ (fun x y => P x ∧ y = h x) xs ys ↔ (∀ x ∈ xs, P x) ∧ ys = xs.map h
  | [], ys => by simp [List.forall₂_nil_left_iff]
  | x :: xs, ys => by
    cases ys with
    | nil => simp
    | cons y ys =>
      rw [List.forall₂_cons, forall₂_eq_map, List.forall_mem_cons, List.map_cons, List.cons.injEq]
      constructor
      · rintro ⟨⟨first, rfl⟩, rest, rfl⟩
        exact ⟨⟨first, rest⟩, rfl, rfl⟩
      · rintro ⟨⟨first, rest⟩, rfl, rfl⟩
        exact ⟨⟨first, rfl⟩, rest, rfl⟩

theorem mapM_eq_ok_map {g : α → Except ε β} {h : α → β} {xs : List α} (each : ∀ x ∈ xs, g x = .ok (h x)) :
    xs.mapM g = .ok (xs.map h) := by
  induction xs with
  | nil => rfl
  | cons x xs inductionHypothesis =>
    rw [List.mapM_cons, each x (.head _), ok_bind, inductionHypothesis fun y member => each y (.tail _ member)]
    rfl

theorem error_iff_not_ok {x : Except ε α} : (∃ e, x = .error e) ↔ ¬∃ a, x = .ok a := by
  cases x <;> simp

theorem Except.eq_ok_of_toOption {x : Except ε α} {a : α} (h : x.toOption = some a) : x = .ok a := by
  cases x with
  | error f => cases h
  | ok b => cases h; rfl

end Except

/-! ## Readers

A reader takes its input off a state and may fail: `StateT σ (Except ε)`. Binding two readers
runs the second on what the first left, so a run of a bind splits at that point. -/

section Readers

variable {σ ε α β : Type} {R : StateT σ (Except ε) α} {g : α → StateT σ (Except ε) β} {s rest : σ}

theorem run_throw (e : ε) : (throw e : StateT σ (Except ε) α).run s = .error e := rfl

theorem run_bind_of_run {x : α} {mid : σ} (read : R.run s = .ok (x, mid)) : (R >>= g).run s = (g x).run mid := by
  rw [StateT.run_bind, read]
  rfl

theorem run_bind_eq_ok_iff {y : β} :
    (R >>= g).run s = .ok (y, rest) ↔ ∃ x mid, R.run s = .ok (x, mid) ∧ (g x).run mid = .ok (y, rest) := by
  rw [StateT.run_bind]
  cases R.run s with
  | error e => simp
  | ok p =>
    obtain ⟨x, mid⟩ := p
    simp

theorem run_bind_eq_ok {y : β} (read : (R >>= g).run s = .ok (y, rest)) :
    ∃ x mid, R.run s = .ok (x, mid) ∧ (g x).run mid = .ok (y, rest) :=
  run_bind_eq_ok_iff.1 read

theorem run_bind_eq_error_iff {e : ε} :
    (R >>= g).run s = .error e ↔ R.run s = .error e ∨ ∃ x mid, R.run s = .ok (x, mid) ∧ (g x).run mid = .error e := by
  rw [StateT.run_bind]
  cases R.run s with
  | error e => simp
  | ok p =>
    obtain ⟨x, mid⟩ := p
    simp

theorem run_pure_eq_ok {x y : α} (read : (pure x : StateT σ (Except ε) α).run s = .ok (y, rest)) :
    x = y ∧ s = rest := by
  simp only [StateT.run_pure] at read
  cases read
  exact ⟨rfl, rfl⟩

theorem run_ite_throw_eq_ok {c : Prop} [Decidable c] {e : ε} {x y : α}
    (read : (if c then throw e else pure x : StateT σ (Except ε) α).run s = .ok (y, rest)) :
    ¬c ∧ x = y ∧ s = rest := by
  by_cases holds : c
  · rw [if_pos holds, run_throw] at read
    cases read
  · rw [if_neg holds] at read
    exact ⟨holds, run_pure_eq_ok read⟩

end Readers

/-! ## Failures of a kind -/

section Kinds

variable {α β : Type}

/-- The computation fails, and its failure is of kind `c`. -/
def FailsWith (x : Except Failure α) (c : Code) : Prop := ∃ f, x = .error f ∧ f.code? = some c

theorem failsWith_coded (c : Code) (reason : String) : FailsWith (.error (.coded c reason) : Except Failure α) c :=
  ⟨_, rfl, rfl⟩

theorem FailsWith.wrap {x : Except Failure α} {c : Code} (fails : FailsWith x c) (context : String) :
    FailsWith (Failure.wrap context x) c := by
  obtain ⟨f, rfl, kind⟩ := fails
  exact ⟨_, rfl, kind⟩

/-- A failing first step is the failure of the whole. -/
theorem FailsWith.bind {x : Except Failure α} {c : Code} (fails : FailsWith x c) (g : α → Except Failure β) :
    FailsWith (x >>= g) c := by
  obtain ⟨f, rfl, kind⟩ := fails
  exact ⟨f, rfl, kind⟩

end Kinds

end MarketData
