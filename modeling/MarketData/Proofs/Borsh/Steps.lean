import MarketData.Proofs.Borsh.RoundTrip

/-!
# The first failure, step by step

The borsh writer and reader handle an entity one primitive step at a time, in layout order:
the byte of an ordinal or of an optional field's arm, a word, a float, a text, or the count of a
side's levels. A value unfolds into its steps (`steps`), an entity into those of its slots
(`layoutSteps`).

Writing a value is writing its steps one after the other (`encodeValue_eq_writeSteps`). Only an
ordinal above 255 and a NaN float cannot be written (`Step.write_eq_error_iff`), and the failure
of a whole entity is that of its first step that cannot be written, whatever follows it.

Reading takes the same steps back. A step is read by the reader of its kind (`Step.read`), which
does not look at the value the step carries. A value of a shape is read as its steps
(`decodeValue_readsSteps`): what the reader reads, it takes back as the steps of what it gives;
it reads every value whose steps it takes back; and it fails with `f` exactly when, for some
value, the reads of its steps take back those before one and the read of that one fails with `f`
on what remains (`FailsAt`). So the failure reported is that of the first read that fails, and
no byte is read after it. An entity adds one failure: bytes left over once every step was read
(`decode_eq_error_iff`). A read fails only as a malformed payload, or, for an arm, as a malformed
union (`Step.read_eq_error_code`). Both directions together are `failure_is_first_failing_step`.
-/

namespace MarketData.Borsh

/-! ## Steps -/

/-- One primitive step of the format. -/
inductive Step where
  /-- An ordinal, in one byte. -/
  | ordinal (n : UInt32)
  /-- The arm of an optional field, in one byte. -/
  | arm (present : Bool)
  /-- A word. -/
  | word (v : UInt64)
  /-- A float. -/
  | float (x : F64)
  /-- A text: its length, then its bytes. -/
  | text (t : Bytes)
  /-- The number of levels of a side. -/
  | count (n : Nat)

/-- The steps of the levels of a side: the price and quantity of each level. -/
def levelSteps (xs : List Level) : List Step := xs.flatMap fun x => [.float x.price, .float x.quantity]

/-- The steps of a side: its count, then its levels. -/
def sideSteps (l : Levels) : List Step := .count l.toList.length :: levelSteps l.toList

/-- The steps of a value, in the order the writer takes them. -/
def steps : (s : Shape) → s.Value → List Step
  | .text, v => [.text v]
  | .int, v => [.word v.toUInt64]
  | .word, v => [.word v]
  | .float, v => [.float v]
  | .amount, v => [.word v.low, .word v.high]
  | .ordinal _, v => [.ordinal v.val]
  | .pair, v => [.text v.base, .text v.quote]
  | .depth, v => [.float v.percentage, .float v.bid, .float v.ask]
  | .book, v => .word v.updateId :: (sideSteps v.bids ++ sideSteps v.asks)
  | .header, v => [.word v.timestamp.toUInt64, .text v.source, .text v.publisher]
  | .levels, v => sideSteps v
  | .optional _, none => [.arm false]
  | .optional s, some v => .arm true :: steps s v

/-- The steps of a value under a layout, slot by slot. -/
def layoutSteps {α : Type} (layout : List (Slot α)) (a : α) : List Step :=
  layout.flatMap fun slot => steps slot.shape (slot.get a)

/-- The steps of an entity. -/
def entitySteps (e : Entity) : List Step := layoutSteps e.kind.layout e.value

@[simp] theorem levelSteps_nil : levelSteps [] = [] := rfl

@[simp] theorem levelSteps_cons (x : Level) (xs : List Level) :
    levelSteps (x :: xs) = .float x.price :: .float x.quantity :: levelSteps xs := rfl

@[simp] theorem layoutSteps_nil {α : Type} (a : α) : layoutSteps [] a = [] := rfl

@[simp] theorem layoutSteps_cons {α : Type} (slot : Slot α) (layout : List (Slot α)) (a : α) :
    layoutSteps (slot :: layout) a = steps slot.shape (slot.get a) ++ layoutSteps layout a := rfl

/-! ## Writing -/

namespace Step

/-- The bytes of a step. An ordinal above 255 does not fit its byte and a NaN float cannot be
written; every other step is written. -/
def write : Step → Except Failure Bytes
  | .ordinal n =>
    if n.toNat < 256 then .ok [n.toUInt8]
    else .error (unwritable s!"enum ordinal {n.toNat} does not fit in u8")
  | .arm present => .ok [if present then 1 else 0]
  | .word v => .ok (Borsh.word v)
  | .float x => Borsh.float x
  | .text t => .ok (Borsh.text t)
  | .count n => .ok (length n)

theorem write_eq_error_iff {t : Step} {f : Failure} :
    t.write = .error f ↔
      (∃ n, t = .ordinal n ∧ 256 ≤ n.toNat ∧ f = unwritable s!"enum ordinal {n.toNat} does not fit in u8") ∨
        ∃ x, t = .float x ∧ x.isNaN = true ∧ f = unwritable "NaN float value" := by
  cases t with
  | ordinal n =>
    unfold write
    by_cases small : n.toNat < 256
    · simp [small]
    · simp only [if_neg small, Except.error.injEq, Step.ordinal.injEq, exists_eq_left', reduceCtorEq,
        false_and, exists_false, or_false]
      constructor
      · rintro rfl
        exact ⟨by omega, rfl⟩
      · rintro ⟨-, rfl⟩
        rfl
  | float x =>
    simp only [write, reduceCtorEq, false_and, exists_false, false_or, Step.float.injEq, exists_eq_left']
    unfold Borsh.float
    cases x.isNaN with
    | true =>
      simp only [if_true, Except.error.injEq, true_and]
      exact eq_comm
    | false => simp
  | arm | word | text | count => simp [write]

end Step

/-- Writes steps one after another and joins their bytes; the first step that cannot be written
gives the failure. -/
def writeSteps (ts : List Step) : Except Failure Bytes := do
  let parts ← ts.mapM Step.write
  pure parts.flatten

theorem writeSteps_nil : writeSteps [] = pure [] := rfl

theorem writeSteps_cons (t : Step) (ts : List Step) :
    writeSteps (t :: ts) = (do let w ← t.write; let rest ← writeSteps ts; pure (w ++ rest)) := by
  simp only [writeSteps, List.mapM_cons, bind_assoc, pure_bind, List.flatten_cons]

theorem writeSteps_append (xs ys : List Step) :
    writeSteps (xs ++ ys) = (do let front ← writeSteps xs; let back ← writeSteps ys; pure (front ++ back)) := by
  simp only [writeSteps, List.mapM_append, bind_assoc, pure_bind, List.flatten_append]

theorem writeSteps_levelSteps (xs : List Level) :
    writeSteps (levelSteps xs) =
      (do
        let parts ← xs.mapM (fun x => do pure ((← float x.price) ++ (← float x.quantity)))
        pure parts.flatten) := by
  induction xs with
  | nil => rfl
  | cons x xs inductionHypothesis =>
    rw [levelSteps_cons, writeSteps_cons, writeSteps_cons, inductionHypothesis]
    simp only [List.mapM_cons, Step.write, bind_assoc, pure_bind, List.flatten_cons, List.append_assoc]

theorem levels_eq_writeSteps (l : Levels) : levels l = writeSteps (sideSteps l) := by
  rw [levels, sideSteps, writeSteps_cons, writeSteps_levelSteps]
  simp only [Step.write, ok_bind, bind_assoc, pure_bind]

/-- Writing a value is writing its steps one after the other. -/
theorem encodeValue_eq_writeSteps (s : Shape) (v : s.Value) : encodeValue s v = writeSteps (steps s v) := by
  induction s with
  | text | int | word | amount | pair | header | float | depth =>
    simp [encodeValue, steps, writeSteps_cons, writeSteps_nil, Step.write]
  | ordinal e =>
    simp only [encodeValue, steps, writeSteps_cons, writeSteps_nil, Step.write]
    split <;> rfl
  | book =>
    rw [steps, writeSteps_cons, writeSteps_append, ← levels_eq_writeSteps, ← levels_eq_writeSteps]
    simp [encodeValue, Step.write]
  | levels => exact levels_eq_writeSteps v
  | optional s inductionHypothesis =>
    cases v with
    | none => rfl
    | some v =>
      simp only [encodeValue, steps, writeSteps_cons, inductionHypothesis v, Step.write, ok_bind]
      rfl

theorem encodeSlots_eq_writeSteps {α : Type} (layout : List (Slot α)) (a : α) :
    encodeSlots layout a = writeSteps (layoutSteps layout a) := by
  induction layout with
  | nil => rfl
  | cons slot layout inductionHypothesis =>
    rw [layoutSteps_cons, writeSteps_append, ← inductionHypothesis,
      ← encodeValue_eq_writeSteps]
    simp only [encodeSlots, List.mapM_cons, bind_assoc, pure_bind, List.flatten_cons]

/-- Steps written one after another fail exactly at their first step that cannot be written;
what follows it is never looked at. -/
theorem writeSteps_eq_error_iff {ts : List Step} {f : Failure} :
    writeSteps ts = .error f ↔
      ∃ pre t post, ts = pre ++ t :: post ∧ (∀ u ∈ pre, ∃ w, u.write = .ok w) ∧ t.write = .error f := by
  induction ts with
  | nil => simp [writeSteps_nil]
  | cons t ts inductionHypothesis =>
    rw [writeSteps_cons, bind_eq_error]
    constructor
    · rintro (refused | ⟨w, wrote, later⟩)
      · exact ⟨[], t, ts, rfl, List.forall_mem_nil _, refused⟩
      · obtain ⟨pre, u, post, rfl, written, refused⟩ :=
          inductionHypothesis.1 ((bind_eq_error.1 later).resolve_right (by simp))
        exact ⟨t :: pre, u, post, rfl, List.forall_mem_cons.2 ⟨⟨w, wrote⟩, written⟩, refused⟩
    · rintro ⟨pre, u, post, split, written, refused⟩
      cases pre with
      | nil =>
        cases split
        exact .inl refused
      | cons p pre =>
        simp only [List.cons_append, List.cons.injEq] at split
        obtain ⟨rfl, rfl⟩ := split
        obtain ⟨w, wrote⟩ := written t (.head _)
        refine .inr ⟨w, wrote, bind_eq_error.2 (.inl (inductionHypothesis.2 ⟨pre, u, post, rfl, ?_, refused⟩))⟩
        exact fun q member => written q (.tail _ member)

/-- An entity fails to be written exactly at its first step, in layout order, that cannot be
written. -/
theorem encode_eq_error_iff {e : Entity} {f : Failure} :
    encode e = .error f ↔
      ∃ pre t post, entitySteps e = pre ++ t :: post ∧ (∀ u ∈ pre, ∃ w, u.write = .ok w) ∧ t.write = .error f := by
  rw [encode, encodeSlots_eq_writeSteps, writeSteps_eq_error_iff]
  rfl

/-! ## Reading steps -/

/-- Reads the arm of an optional field: a tag of 0 or 1. -/
def readArm : Reader Bool := do
  match Arm.ofWire (← readByte).toNat with
  | .error f => throw f
  | .ok .absent => pure false
  | .ok .present => pure true

/-- Reads the count of a side, which must leave room for its levels. -/
def readCount : Reader Nat := do
  let n ← readLength
  let remaining := (← get).length
  if n * 16 > remaining then throw (unreadable s!"{n} elements exceed the {remaining} remaining bytes")
  pure n

namespace Step

/-- Reads a step of the same kind as this one; the value it carries is not looked at. -/
def read : Step → Reader Step
  | .ordinal _ => do pure (.ordinal (← readByte).toUInt32)
  | .arm _ => do pure (.arm (← readArm))
  | .word _ => do pure (.word (← readWord))
  | .float _ => do pure (.float (← readFloat))
  | .text _ => do pure (.text (← readText))
  | .count _ => do pure (.count (← readCount))

end Step

/-- The reads of the kinds of `ts`, one after the other, take back exactly `ts` from `b` and
leave `rest`. -/
def ReadsBack : List Step → Bytes → Bytes → Prop
  | [], b, rest => b = rest
  | t :: ts, b, rest => ∃ mid, t.read.run b = .ok (t, mid) ∧ ReadsBack ts mid rest

/-- The reads of the kinds of `ts`, one after the other, fail with `f`: every read before the
failing one takes its step back, and nothing after the failing one is read. -/
def FailsAt : List Step → Bytes → Failure → Prop
  | [], _, _ => False
  | t :: ts, b, f => t.read.run b = .error f ∨ ∃ mid, t.read.run b = .ok (t, mid) ∧ FailsAt ts mid f

section Runs

variable {α β : Type} {b rest : Bytes} {f : Failure}

@[simp] theorem readsBack_nil : ReadsBack [] b rest ↔ b = rest := Iff.rfl

@[simp] theorem readsBack_cons {t : Step} {ts : List Step} :
    ReadsBack (t :: ts) b rest ↔ ∃ mid, t.read.run b = .ok (t, mid) ∧ ReadsBack ts mid rest := Iff.rfl

@[simp] theorem failsAt_nil : ¬FailsAt [] b f := id

@[simp] theorem failsAt_cons {t : Step} {ts : List Step} :
    FailsAt (t :: ts) b f ↔ t.read.run b = .error f ∨ ∃ mid, t.read.run b = .ok (t, mid) ∧ FailsAt ts mid f :=
  Iff.rfl

theorem readsBack_append {xs ys : List Step} :
    ReadsBack (xs ++ ys) b rest ↔ ∃ mid, ReadsBack xs b mid ∧ ReadsBack ys mid rest := by
  induction xs generalizing b with
  | nil => simp
  | cons t xs inductionHypothesis =>
    simp only [List.cons_append, readsBack_cons, inductionHypothesis]
    constructor
    · rintro ⟨mid, read, after, front, back⟩
      exact ⟨after, ⟨mid, read, front⟩, back⟩
    · rintro ⟨after, ⟨mid, read, front⟩, back⟩
      exact ⟨mid, read, after, front, back⟩

/-- The reads of two runs of steps fail in the first, or take the first back and fail in the
second. -/
theorem failsAt_append {xs ys : List Step} :
    FailsAt (xs ++ ys) b f ↔ FailsAt xs b f ∨ ∃ mid, ReadsBack xs b mid ∧ FailsAt ys mid f := by
  induction xs generalizing b with
  | nil => simp
  | cons t xs inductionHypothesis =>
    simp only [List.cons_append, failsAt_cons, readsBack_cons, inductionHypothesis]
    constructor
    · rintro (refused | ⟨mid, read, early | ⟨after, front, late⟩⟩)
      · exact .inl (.inl refused)
      · exact .inl (.inr ⟨mid, read, early⟩)
      · exact .inr ⟨after, ⟨mid, read, front⟩, late⟩
    · rintro ((refused | ⟨mid, read, early⟩) | ⟨after, ⟨mid, read, front⟩, late⟩)
      · exact .inl refused
      · exact .inr ⟨mid, read, .inl early⟩
      · exact .inr ⟨mid, read, .inr ⟨after, front, late⟩⟩

/-- The failing read, spelled out: the steps before it are taken back, and its own read fails
on what they leave. -/
theorem failsAt_iff {ts : List Step} :
    FailsAt ts b f ↔ ∃ pre t post rest, ts = pre ++ t :: post ∧ ReadsBack pre b rest ∧ t.read.run rest = .error f := by
  induction ts generalizing b with
  | nil => simp
  | cons t ts inductionHypothesis =>
    simp only [failsAt_cons, inductionHypothesis]
    constructor
    · rintro (refused | ⟨mid, read, pre, u, post, rest, rfl, front, refused⟩)
      · exact ⟨[], t, ts, b, rfl, rfl, refused⟩
      · exact ⟨t :: pre, u, post, rest, rfl, ⟨mid, read, front⟩, refused⟩
    · rintro ⟨pre, u, post, rest, split, front, refused⟩
      cases pre with
      | nil =>
        simp only [List.nil_append, List.cons.injEq] at split
        obtain ⟨rfl, rfl⟩ := split
        rw [readsBack_nil] at front
        subst front
        exact .inl refused
      | cons p pre =>
        simp only [List.cons_append, List.cons.injEq] at split
        obtain ⟨rfl, rfl⟩ := split
        obtain ⟨mid, read, front⟩ := front
        exact .inr ⟨mid, read, pre, u, post, rest, rfl, front, refused⟩

/-- A reader whose value is handed on through an injective map reads the image exactly when the
reader reads the value. -/
theorem run_map_eq_ok {R : Reader α} {g : α → β} (injective : Function.Injective g) {x : α} :
    (R >>= fun y => pure (g y)).run b = .ok (g x, rest) ↔ R.run b = .ok (x, rest) := by
  rw [run_bind_eq_ok_iff]
  constructor
  · rintro ⟨y, mid, read, gave⟩
    simp only [StateT.run_pure, pure_eq_ok, Prod.mk.injEq] at gave
    obtain ⟨same, rfl⟩ := gave
    rw [injective same] at read
    exact read
  · intro read
    exact ⟨x, rest, read, rfl⟩

theorem run_map_eq_error {R : Reader α} {g : α → β} :
    (R >>= fun y => pure (g y)).run b = .error f ↔ R.run b = .error f := by
  rw [run_bind_eq_error_iff]
  simp

end Runs

/-! ## The reads of each kind of step -/

namespace Step

theorem read_ordinal (n : UInt32) : (ordinal n).read = readByte >>= fun x => pure (ordinal x.toUInt32) := rfl

theorem read_arm (p : Bool) : (arm p).read = readArm >>= fun q => pure (arm q) := rfl

theorem read_word (v : UInt64) : (word v).read = readWord >>= fun y => pure (word y) := rfl

theorem read_float (x : F64) : (float x).read = readFloat >>= fun y => pure (float y) := rfl

theorem read_text (t : Bytes) : (text t).read = readText >>= fun y => pure (text y) := rfl

theorem read_count (n : Nat) : (count n).read = readCount >>= fun m => pure (count m) := rfl

theorem arm_injective : Function.Injective arm := fun _ _ => arm.inj

theorem word_injective : Function.Injective word := fun _ _ => word.inj

theorem float_injective : Function.Injective float := fun _ _ => float.inj

theorem text_injective : Function.Injective text := fun _ _ => text.inj

theorem count_injective : Function.Injective count := fun _ _ => count.inj

end Step

section Kinds

variable {α : Type} {R : Reader α} {mk : α → Step} {b rest : Bytes} {f : Failure}

theorem readsBack_cons_of (injective : Function.Injective mk) (reads : ∀ v, (mk v).read = R >>= fun x => pure (mk x))
    {v : α} {ts : List Step} :
    ReadsBack (mk v :: ts) b rest ↔ ∃ mid, R.run b = .ok (v, mid) ∧ ReadsBack ts mid rest := by
  simp only [readsBack_cons, reads, run_map_eq_ok injective]

theorem failsAt_cons_of (injective : Function.Injective mk) (reads : ∀ v, (mk v).read = R >>= fun x => pure (mk x))
    {v : α} {ts : List Step} :
    FailsAt (mk v :: ts) b f ↔ R.run b = .error f ∨ ∃ mid, R.run b = .ok (v, mid) ∧ FailsAt ts mid f := by
  simp only [failsAt_cons, reads, run_map_eq_error, run_map_eq_ok injective]

end Kinds

/-! ## Readers that read steps -/

/-- `R` reads values as `stepsOf` describes them: what it reads is taken back by the reads of its
steps, steps that read back are read as a value with the same steps, and it fails exactly where
the reads of the steps of some value fail. -/
structure ReadsSteps {α : Type} (R : Reader α) (stepsOf : α → List Step) : Prop where
  readsBack : ∀ {b rest x}, R.run b = .ok (x, rest) → ReadsBack (stepsOf x) b rest
  ofReadsBack : ∀ {b rest v}, ReadsBack (stepsOf v) b rest → ∃ x, R.run b = .ok (x, rest) ∧ stepsOf x = stepsOf v
  error_iff : ∀ {b f}, R.run b = .error f ↔ ∃ v, FailsAt (stepsOf v) b f

/-- Reads two things, one after the other. -/
def both {α β : Type} (first : Reader α) (second : Reader β) : Reader (α × β) := do
  let x ← first
  let y ← second
  pure (x, y)

namespace ReadsSteps

variable {α β γ : Type}

theorem single [Inhabited α] {R : Reader α} {mk : α → Step} (injective : Function.Injective mk)
    (reads : ∀ v, (mk v).read = R >>= fun x => pure (mk x)) : ReadsSteps R fun v => [mk v] where
  readsBack read := (readsBack_cons_of injective reads).2 ⟨_, read, rfl⟩
  ofReadsBack back := by
    obtain ⟨mid, read, rfl⟩ := (readsBack_cons_of injective reads).1 back
    exact ⟨_, read, rfl⟩
  error_iff {b f} := by
    simp only [failsAt_cons_of injective reads, failsAt_nil, and_false, exists_false, or_false, exists_const]

theorem both [Inhabited β] {R₁ : Reader α} {R₂ : Reader β} {s₁ : α → List Step} {s₂ : β → List Step}
    (first : ReadsSteps R₁ s₁) (second : ReadsSteps R₂ s₂) :
    ReadsSteps (Borsh.both R₁ R₂) fun p => s₁ p.1 ++ s₂ p.2 where
  readsBack {b rest p} read := by
    obtain ⟨x, mid, readX, later⟩ := run_bind_eq_ok read
    obtain ⟨y, after, readY, gave⟩ := run_bind_eq_ok later
    obtain ⟨rfl, rfl⟩ := run_pure_eq_ok gave
    exact readsBack_append.2 ⟨mid, first.readsBack readX, second.readsBack readY⟩
  ofReadsBack {b rest v} back := by
    obtain ⟨mid, front, tail⟩ := readsBack_append.1 back
    obtain ⟨x, readX, sameX⟩ := first.ofReadsBack front
    obtain ⟨y, readY, sameY⟩ := second.ofReadsBack tail
    refine ⟨(x, y), ?_, by rw [sameX, sameY]⟩
    rw [Borsh.both, run_bind_of_run readX, run_bind_of_run readY]
    rfl
  error_iff {b f} := by
    rw [Borsh.both, run_bind_eq_error_iff]
    constructor
    · rintro (refused | ⟨x, mid, readX, later⟩)
      · obtain ⟨v, failed⟩ := first.error_iff.1 refused
        exact ⟨(v, default), failsAt_append.2 (.inl failed)⟩
      · rcases run_bind_eq_error_iff.1 later with refused | ⟨y, after, -, never⟩
        · obtain ⟨w, failed⟩ := second.error_iff.1 refused
          exact ⟨(x, w), failsAt_append.2 (.inr ⟨mid, first.readsBack readX, failed⟩)⟩
        · cases never
    · rintro ⟨v, failed⟩
      rcases failsAt_append.1 failed with early | ⟨mid, front, late⟩
      · exact .inl (first.error_iff.2 ⟨_, early⟩)
      · obtain ⟨x, readX, -⟩ := first.ofReadsBack front
        exact .inr ⟨x, mid, readX, run_bind_eq_error_iff.2 (.inl (second.error_iff.2 ⟨_, late⟩))⟩

theorem map {R : Reader α} {s : α → List Step} {s' : γ → List Step} (reads : ReadsSteps R s)
    (g : α → γ) (h : γ → α) (forth : ∀ x, s' (g x) = s x) (back : ∀ v, s' v = s (h v)) :
    ReadsSteps (R >>= fun x => pure (g x)) s' where
  readsBack {b rest y} read := by
    obtain ⟨x, mid, readX, gave⟩ := run_bind_eq_ok read
    obtain ⟨rfl, rfl⟩ := run_pure_eq_ok gave
    rw [forth]
    exact reads.readsBack readX
  ofReadsBack {b rest v} steps := by
    rw [back] at steps
    obtain ⟨x, readX, same⟩ := reads.ofReadsBack steps
    exact ⟨g x, by rw [run_bind_of_run readX]; rfl, by rw [forth, back, same]⟩
  error_iff {b f} := by
    rw [run_map_eq_error, reads.error_iff]
    constructor
    · rintro ⟨x, failed⟩
      exact ⟨g x, by rwa [forth]⟩
    · rintro ⟨v, failed⟩
      exact ⟨h v, by rwa [← back]⟩

end ReadsSteps


theorem readText_readsSteps : ReadsSteps readText fun t => [.text t] :=
  .single Step.text_injective Step.read_text

theorem readWord_readsSteps : ReadsSteps readWord fun v => [.word v] :=
  .single Step.word_injective Step.read_word

theorem readFloat_readsSteps : ReadsSteps readFloat fun x => [.float x] :=
  .single Step.float_injective Step.read_float

/-! ## What a failing read reports -/

/-- Every failure of `R` is a malformed payload. -/
def FailsAsPayload {α : Type} (R : Reader α) : Prop :=
  ∀ b f, R.run b = .error f → f.code? = some .malformedPayload

namespace FailsAsPayload

variable {α β : Type}

theorem of_pure (x : α) : FailsAsPayload (pure x : Reader α) := by
  intro b f refused
  simp only [StateT.run_pure, pure_eq_error] at refused

theorem of_get : FailsAsPayload (get : Reader Bytes) := by
  intro b f refused
  cases refused

theorem of_throw (reason : String) : FailsAsPayload (throw (unreadable reason) : Reader α) := by
  intro b f refused
  rw [run_throw] at refused
  cases refused
  rfl

theorem of_guard (c : Prop) [Decidable c] (reason : String) (x : α) :
    FailsAsPayload (if c then throw (unreadable reason) else pure x : Reader α) := by
  split
  · exact of_throw reason
  · exact of_pure x

theorem of_bind {R : Reader α} {g : α → Reader β} (first : FailsAsPayload R) (next : ∀ x, FailsAsPayload (g x)) :
    FailsAsPayload (R >>= g) := by
  intro b f refused
  rcases run_bind_eq_error_iff.1 refused with refused | ⟨x, mid, -, refused⟩
  · exact first _ _ refused
  · exact next x _ _ refused

theorem of_take (n : Nat) (reason : Nat → String) : FailsAsPayload (take n reason) := by
  intro b f refused
  rw [take_run] at refused
  split at refused
  · cases refused
  · cases refused
    rfl

end FailsAsPayload

theorem readByte_failsAsPayload : FailsAsPayload readByte :=
  .of_bind (.of_take _ _) fun _ => .of_pure _

theorem readWord_failsAsPayload : FailsAsPayload readWord :=
  .of_bind (.of_take _ _) fun _ => .of_pure _

theorem readFloat_failsAsPayload : FailsAsPayload readFloat :=
  .of_bind (.of_take _ _) fun _ => .of_guard _ _ _

theorem readLength_failsAsPayload : FailsAsPayload readLength :=
  .of_bind (.of_take _ _) fun _ => .of_guard _ _ _

theorem readText_failsAsPayload : FailsAsPayload readText :=
  .of_bind readLength_failsAsPayload fun _ => .of_take _ _

theorem readCount_failsAsPayload : FailsAsPayload readCount := by
  refine .of_bind readLength_failsAsPayload fun _ => .of_bind .of_get fun _ => ?_
  dsimp only
  split
  · exact .of_bind (.of_throw _) fun _ => .of_pure _
  · exact .of_pure _

theorem Arm.ofWire_eq_error {n : Nat} {f : Failure} (refused : Arm.ofWire n = .error f) :
    f.code? = some .malformedUnion := by
  unfold Arm.ofWire at refused
  split_ifs at refused
  cases refused
  rfl

/-- A read fails only as a malformed payload: input too short, a NaN float, a length above
2^31 - 1 or a count of levels beyond the remaining bytes. The read of an arm fails also as a
malformed union, on a tag other than 0 or 1. -/
theorem Step.read_eq_error_code {t : Step} {b : Bytes} {f : Failure} (refused : t.read.run b = .error f) :
    f.code? = some .malformedPayload ∨ (∃ p, t = .arm p) ∧ f.code? = some .malformedUnion := by
  cases t with
  | ordinal n => exact .inl (FailsAsPayload.of_bind readByte_failsAsPayload (fun _ => .of_pure _) _ _ refused)
  | arm p =>
    rw [Step.read_arm, run_map_eq_error, readArm, run_bind_eq_error_iff] at refused
    rcases refused with refused | ⟨x, mid, -, refused⟩
    · exact .inl (readByte_failsAsPayload _ _ refused)
    · refine .inr ⟨⟨p, rfl⟩, ?_⟩
      -- the byte was read, so the tag it holds names no arm
      cases tag : Arm.ofWire x.toNat with
      | error g =>
        rw [tag, run_throw] at refused
        cases refused
        exact Arm.ofWire_eq_error tag
      | ok arm =>
        cases arm <;>
          (rw [tag] at refused; simp only [StateT.run_pure, pure_eq_error] at refused)
  | word v => exact .inl (FailsAsPayload.of_bind readWord_failsAsPayload (fun _ => .of_pure _) _ _ refused)
  | float x => exact .inl (FailsAsPayload.of_bind readFloat_failsAsPayload (fun _ => .of_pure _) _ _ refused)
  | text t => exact .inl (FailsAsPayload.of_bind readText_failsAsPayload (fun _ => .of_pure _) _ _ refused)
  | count n => exact .inl (FailsAsPayload.of_bind readCount_failsAsPayload (fun _ => .of_pure _) _ _ refused)

/-! ## Sides and optional values -/

theorem readLevelList_readsBack {b rest : Bytes} {xs : List Level} :
    ∀ {n : Nat}, (readLevelList n).run b = .ok (xs, rest) → xs.length = n ∧ ReadsBack (levelSteps xs) b rest := by
  intro n
  induction n generalizing b xs with
  | zero =>
    intro read
    obtain ⟨rfl, rfl⟩ := run_pure_eq_ok read
    exact ⟨rfl, rfl⟩
  | succ n inductionHypothesis =>
    intro read
    obtain ⟨price, mid, readPrice, read⟩ := run_bind_eq_ok read
    obtain ⟨quantity, after, readQuantity, read⟩ := run_bind_eq_ok read
    obtain ⟨ys, last, readRest, gave⟩ := run_bind_eq_ok read
    obtain ⟨rfl, rfl⟩ := run_pure_eq_ok gave
    obtain ⟨counted, back⟩ := inductionHypothesis readRest
    refine ⟨by rw [List.length_cons, counted], ?_⟩
    simp only [levelSteps_cons, readsBack_cons_of Step.float_injective Step.read_float]
    exact ⟨mid, readPrice, after, readQuantity, back⟩

theorem readLevelList_of_readsBack {b rest : Bytes} {xs : List Level} (back : ReadsBack (levelSteps xs) b rest) :
    (readLevelList xs.length).run b = .ok (xs, rest) := by
  induction xs generalizing b with
  | nil =>
    rw [levelSteps_nil, readsBack_nil] at back
    subst back
    rfl
  | cons x xs inductionHypothesis =>
    simp only [levelSteps_cons, readsBack_cons_of Step.float_injective Step.read_float] at back
    obtain ⟨mid, readPrice, after, readQuantity, back⟩ := back
    rw [List.length_cons, readLevelList, run_bind_of_run readPrice, run_bind_of_run readQuantity,
      run_bind_of_run (inductionHypothesis back)]
    rfl

/-- Reading `n` levels fails exactly where the steps of some `n` levels fail. -/
theorem readLevelList_eq_error_iff {f : Failure} :
    ∀ {n : Nat} {b : Bytes}, (readLevelList n).run b = .error f ↔
      ∃ xs : List Level, xs.length = n ∧ FailsAt (levelSteps xs) b f := by
  intro n
  induction n with
  | zero =>
    intro b
    simp only [readLevelList, StateT.run_pure, pure_eq_error, false_iff, List.length_eq_zero_iff]
    rintro ⟨xs, rfl, failed⟩
    exact failed
  | succ n inductionHypothesis =>
    intro b
    simp only [readLevelList, run_bind_eq_error_iff, inductionHypothesis, StateT.run_pure, pure_eq_error,
      and_false, exists_false, or_false]
    constructor
    · rintro (refused | ⟨price, mid, readPrice, refused | ⟨quantity, after, readQuantity, ys, counted, failed⟩⟩)
      · refine ⟨default :: List.replicate n default, by simp, ?_⟩
        rw [levelSteps_cons, failsAt_cons_of Step.float_injective Step.read_float]
        exact .inl refused
      · refine ⟨⟨price, default⟩ :: List.replicate n default, by simp, ?_⟩
        simp only [levelSteps_cons, failsAt_cons_of Step.float_injective Step.read_float]
        exact .inr ⟨mid, readPrice, .inl refused⟩
      · refine ⟨⟨price, quantity⟩ :: ys, by rw [List.length_cons, counted], ?_⟩
        simp only [levelSteps_cons, failsAt_cons_of Step.float_injective Step.read_float]
        exact .inr ⟨mid, readPrice, .inr ⟨after, readQuantity, failed⟩⟩
    · rintro ⟨_ | ⟨⟨price, quantity⟩, ys⟩, counted, failed⟩
      · cases counted
      · simp only [levelSteps_cons, failsAt_cons_of Step.float_injective Step.read_float] at failed
        rcases failed with refused | ⟨mid, readPrice, refused | ⟨after, readQuantity, failed⟩⟩
        · exact .inl refused
        · exact .inr ⟨price, mid, readPrice, .inl refused⟩
        · exact .inr ⟨price, mid, readPrice, .inr ⟨quantity, after, readQuantity, ys,
            Nat.succ.inj counted, failed⟩⟩

theorem readLevels_eq_bind :
    readLevels = readCount >>= fun n => if n = 0 then pure none else readLevelList n >>= fun xs => pure (some xs) := by
  simp only [readLevels, readCount, bind_assoc]
  congr 1
  funext n
  congr 1
  funext input
  split <;> simp only [bind_assoc, pure_bind]

/-- A side is read as its count and then its levels; a count of zero reads as not supplied, whose
steps are those of an empty side. -/
theorem readLevels_readsSteps : ReadsSteps readLevels sideSteps where
  readsBack {b rest l} read := by
    rw [readLevels_eq_bind] at read
    obtain ⟨n, mid, readN, read⟩ := run_bind_eq_ok read
    split at read
    · next empty =>
      obtain ⟨rfl, rfl⟩ := run_pure_eq_ok read
      subst empty
      exact (readsBack_cons_of Step.count_injective Step.read_count).2 ⟨_, readN, rfl⟩
    · obtain ⟨xs, after, readXs, gave⟩ := run_bind_eq_ok read
      obtain ⟨rfl, rfl⟩ := run_pure_eq_ok gave
      obtain ⟨rfl, back⟩ := readLevelList_readsBack readXs
      exact (readsBack_cons_of Step.count_injective Step.read_count).2 ⟨mid, readN, back⟩
  ofReadsBack {b rest v} back := by
    rw [sideSteps, readsBack_cons_of Step.count_injective Step.read_count] at back
    obtain ⟨mid, readN, back⟩ := back
    have readXs := readLevelList_of_readsBack back
    rw [readLevels_eq_bind, run_bind_of_run readN]
    by_cases empty : v.toList.length = 0
    · rw [List.length_eq_zero_iff] at empty
      rw [empty, levelSteps_nil, readsBack_nil] at back
      subst back
      refine ⟨none, ?_, by simp only [sideSteps, empty]; rfl⟩
      rw [if_pos (by rw [empty, List.length_nil])]
      rfl
    · refine ⟨some v.toList, ?_, rfl⟩
      rw [if_neg empty, run_bind_of_run readXs]
      rfl
  error_iff {b f} := by
    rw [readLevels_eq_bind, run_bind_eq_error_iff]
    constructor
    · rintro (refused | ⟨n, mid, readN, later⟩)
      · exact ⟨none, (failsAt_cons_of Step.count_injective Step.read_count).2 (.inl refused)⟩
      · split at later
        · simp only [StateT.run_pure, pure_eq_error] at later
        · obtain ⟨xs, rfl, failed⟩ := readLevelList_eq_error_iff.1 (run_map_eq_error.1 later)
          exact ⟨some xs, (failsAt_cons_of Step.count_injective Step.read_count).2 (.inr ⟨mid, readN, failed⟩)⟩
    · rintro ⟨v, failed⟩
      rw [sideSteps, failsAt_cons_of Step.count_injective Step.read_count] at failed
      rcases failed with refused | ⟨mid, readN, failed⟩
      · exact .inl refused
      · refine .inr ⟨_, mid, readN, ?_⟩
        -- no levels cannot fail, so the count read is not zero
        have counted : v.toList.length ≠ 0 := by
          intro empty
          rw [List.length_eq_zero_iff] at empty
          rw [empty, levelSteps_nil] at failed
          exact failsAt_nil failed
        rw [if_neg counted]
        exact run_map_eq_error.2 (readLevelList_eq_error_iff.2 ⟨_, rfl, failed⟩)

/-- Reads an arm and, under the present arm, a value. -/
def readOption {α : Type} (R : Reader α) : Reader (Option α) := do
  if ← readArm then pure (some (← R)) else pure none

/-- The steps of an optional value: its arm and then, when present, the steps of its payload. -/
def optionSteps {α : Type} (stepsOf : α → List Step) : Option α → List Step
  | none => [.arm false]
  | some v => .arm true :: stepsOf v

theorem decodeValue_optional (s : Shape) : decodeValue (.optional s) = readOption (decodeValue s) := by
  simp only [decodeValue, readOption, readArm, bind_assoc]
  congr 1
  funext tag
  cases Arm.ofWire tag.toNat with
  | error f => rfl
  | ok arm => cases arm <;> rfl

theorem steps_optional (s : Shape) : steps (.optional s) = optionSteps (steps s) := by
  funext v
  cases v <;> rfl

theorem ReadsSteps.option {α : Type} {R : Reader α} {stepsOf : α → List Step} (reads : ReadsSteps R stepsOf) :
    ReadsSteps (readOption R) (optionSteps stepsOf) where
  readsBack {b rest x} read := by
    obtain ⟨present, mid, readTag, read⟩ := run_bind_eq_ok read
    cases present with
    | false =>
      rw [if_neg Bool.false_ne_true] at read
      obtain ⟨rfl, rfl⟩ := run_pure_eq_ok read
      exact (readsBack_cons_of Step.arm_injective Step.read_arm).2 ⟨_, readTag, rfl⟩
    | true =>
      rw [if_pos rfl] at read
      obtain ⟨v, after, readV, gave⟩ := run_bind_eq_ok read
      obtain ⟨rfl, rfl⟩ := run_pure_eq_ok gave
      exact (readsBack_cons_of Step.arm_injective Step.read_arm).2 ⟨mid, readTag, reads.readsBack readV⟩
  ofReadsBack {b rest v} back := by
    cases v with
    | none =>
      obtain ⟨mid, readTag, rfl⟩ := (readsBack_cons_of Step.arm_injective Step.read_arm).1 back
      refine ⟨none, ?_, rfl⟩
      rw [readOption, run_bind_of_run readTag, if_neg Bool.false_ne_true]
      rfl
    | some v =>
      obtain ⟨mid, readTag, back⟩ := (readsBack_cons_of Step.arm_injective Step.read_arm).1 back
      obtain ⟨x, readX, same⟩ := reads.ofReadsBack back
      refine ⟨some x, ?_, by rw [optionSteps, optionSteps, same]⟩
      rw [readOption, run_bind_of_run readTag, if_pos rfl, run_bind_of_run readX]
      rfl
  error_iff {b f} := by
    rw [readOption, run_bind_eq_error_iff]
    constructor
    · rintro (refused | ⟨present, mid, readTag, later⟩)
      · exact ⟨none, (failsAt_cons_of Step.arm_injective Step.read_arm).2 (.inl refused)⟩
      · cases present with
        | false =>
          rw [if_neg Bool.false_ne_true] at later
          simp only [StateT.run_pure, pure_eq_error] at later
        | true =>
          rw [if_pos rfl] at later
          obtain ⟨v, failed⟩ := reads.error_iff.1 (run_map_eq_error.1 later)
          exact ⟨some v, (failsAt_cons_of Step.arm_injective Step.read_arm).2 (.inr ⟨mid, readTag, failed⟩)⟩
    · rintro ⟨v, failed⟩
      cases v with
      | none =>
        rcases (failsAt_cons_of Step.arm_injective Step.read_arm).1 failed with refused | ⟨mid, -, never⟩
        · exact .inl refused
        · exact (failsAt_nil never).elim
      | some v =>
        rcases (failsAt_cons_of Step.arm_injective Step.read_arm).1 failed with refused | ⟨mid, readTag, failed⟩
        · exact .inl refused
        · refine .inr ⟨true, mid, readTag, ?_⟩
          rw [if_pos rfl]
          exact run_map_eq_error.2 (reads.error_iff.2 ⟨v, failed⟩)

/-! ## Values -/

theorem decodeValue_ordinal_readsSteps (e : Enumeration) :
    ReadsSteps (decodeValue (.ordinal e)) (steps (.ordinal e)) := by
  have : Inhabited (Shape.ordinal e).Value := inferInstanceAs (Inhabited (Ordinal e))
  have injective : Function.Injective fun v : Ordinal e => Step.ordinal v.val := by
    rintro ⟨v⟩ ⟨w⟩ same
    cases same
    rfl
  refine .single injective fun v => ?_
  simp only [Step.read_ordinal, decodeValue, bind_assoc]
  rfl

/-- Every shape is read as its steps. The records are read field after field, so their readers
are pairs of the readers of their fields, mapped into the record. -/
theorem decodeValue_readsSteps : ∀ s : Shape, ReadsSteps (decodeValue s) (steps s)
  | .text => readText_readsSteps
  | .int =>
    readWord_readsSteps.map UInt64.toInt64 Int64.toUInt64 (fun x => by simp only [steps, UInt64.toUInt64_toInt64])
      fun _ => rfl
  | .word => readWord_readsSteps
  | .float => readFloat_readsSteps
  | .amount => by
    have reads : decodeValue .amount = both readWord readWord >>= fun p => pure ⟨p.1, p.2⟩ := by
      simp only [decodeValue, both, bind_assoc, pure_bind]
    rw [reads]
    exact (readWord_readsSteps.both readWord_readsSteps).map _ (fun v => (v.low, v.high)) (fun _ => rfl)
      fun _ => rfl
  | .ordinal e => decodeValue_ordinal_readsSteps e
  | .pair => by
    have reads : decodeValue .pair = both readText readText >>= fun p => pure ⟨p.1, p.2⟩ := by
      simp only [decodeValue, both, bind_assoc, pure_bind]
    rw [reads]
    exact (readText_readsSteps.both readText_readsSteps).map _ (fun v => (v.base, v.quote)) (fun _ => rfl)
      fun _ => rfl
  | .depth => by
    have reads : decodeValue .depth =
        both readFloat (both readFloat readFloat) >>= fun p => pure ⟨p.1, p.2.1, p.2.2⟩ := by
      simp only [decodeValue, both, bind_assoc, pure_bind]
    rw [reads]
    exact (readFloat_readsSteps.both (readFloat_readsSteps.both readFloat_readsSteps)).map _
      (fun v => (v.percentage, v.bid, v.ask)) (fun _ => rfl) fun _ => rfl
  | .book => by
    have reads : decodeValue .book =
        both readWord (both readLevels readLevels) >>= fun p => pure ⟨p.1, p.2.1, p.2.2⟩ := by
      simp only [decodeValue, both, bind_assoc, pure_bind]
    rw [reads]
    exact (readWord_readsSteps.both (readLevels_readsSteps.both readLevels_readsSteps)).map _
      (fun v => (v.updateId, v.bids, v.asks)) (fun _ => rfl) fun _ => rfl
  | .header => by
    have reads : decodeValue .header =
        both readWord (both readText readText) >>= fun p => pure ⟨p.1.toInt64, p.2.1, p.2.2⟩ := by
      simp only [decodeValue, both, bind_assoc, pure_bind]
    rw [reads]
    exact (readWord_readsSteps.both (readText_readsSteps.both readText_readsSteps)).map _
      (fun v => (v.timestamp.toUInt64, v.source, v.publisher))
      (fun p => by simp only [steps, UInt64.toUInt64_toInt64]; rfl) fun _ => rfl
  | .levels => readLevels_readsSteps
  | .optional s => by
    rw [decodeValue_optional, steps_optional]
    exact (decodeValue_readsSteps s).option

/-! ## Layouts and entities -/

section Layouts

variable {α : Type} {b rest : Bytes} {f : Failure}

theorem layoutSteps_set {slot : Slot α} {layout : List (Slot α)} (apart : ∀ t ∈ layout, Slot.Independent slot t)
    (x : slot.shape.Value) (a : α) : layoutSteps layout (slot.set x a) = layoutSteps layout a := by
  induction layout with
  | nil => rfl
  | cons t layout inductionHypothesis =>
    rw [layoutSteps_cons, layoutSteps_cons, (apart t (.head _)).2 x a,
      inductionHypothesis fun u member => apart u (.tail _ member)]

theorem decodeSlots_cons (slot : Slot α) (layout : List (Slot α)) (init : α) :
    decodeSlots (slot :: layout) init = decodeValue slot.shape >>= fun x => decodeSlots layout (slot.set x init) := by
  simp only [decodeSlots, List.foldlM_cons, bind_assoc, pure_bind]

theorem decodeSlots_readsBack :
    ∀ {layout : List (Slot α)}, Layout.Lawful layout → ∀ {init value : α} {b rest : Bytes},
      (decodeSlots layout init).run b = .ok (value, rest) → ReadsBack (layoutSteps layout value) b rest
  | [], _, _, _, _, _, read => by
    obtain ⟨rfl, rfl⟩ := run_pure_eq_ok read
    rfl
  | slot :: layout, lawful, init, value, _, _, read => by
    rw [decodeSlots_cons] at read
    obtain ⟨x, mid, readX, later⟩ := run_bind_eq_ok read
    -- the later slots are other fields, so the head slot keeps the value just read
    have kept : slot.get value = x := by
      rw [get_decodeSlots lawful.head_apart later]
      exact (lawful.slots slot (.head _)).get_set x init
    rw [layoutSteps_cons, kept, readsBack_append]
    exact ⟨mid, (decodeValue_readsSteps slot.shape).readsBack readX, decodeSlots_readsBack lawful.tail later⟩

theorem decodeSlots_of_readsBack :
    ∀ {layout : List (Slot α)} (init : α) {v : α} {b rest : Bytes},
      ReadsBack (layoutSteps layout v) b rest → ∃ value, (decodeSlots layout init).run b = .ok (value, rest)
  | [], init, _, _, _, back => by
    rw [layoutSteps_nil, readsBack_nil] at back
    subst back
    exact ⟨init, rfl⟩
  | slot :: layout, init, _, _, _, back => by
    rw [layoutSteps_cons, readsBack_append] at back
    obtain ⟨mid, front, back⟩ := back
    obtain ⟨x, readX, -⟩ := (decodeValue_readsSteps slot.shape).ofReadsBack front
    obtain ⟨value, later⟩ := decodeSlots_of_readsBack (slot.set x init) back
    exact ⟨value, by rw [decodeSlots_cons, run_bind_of_run readX]; exact later⟩

theorem decodeSlots_eq_error_iff :
    ∀ {layout : List (Slot α)}, Layout.Lawful layout → ∀ {init : α} {b : Bytes},
      (decodeSlots layout init).run b = .error f ↔ ∃ v, FailsAt (layoutSteps layout v) b f
  | [], _, init, _ => by simp [decodeSlots]
  | slot :: layout, lawful, init, b => by
    have stored := (lawful.slots slot (.head _)).get_set
    rw [decodeSlots_cons, run_bind_eq_error_iff]
    constructor
    · rintro (refused | ⟨x, mid, readX, later⟩)
      · obtain ⟨u, failed⟩ := (decodeValue_readsSteps slot.shape).error_iff.1 refused
        refine ⟨slot.set u init, ?_⟩
        rw [layoutSteps_cons, stored, failsAt_append]
        exact .inl failed
      · -- the value read goes into the head slot of a value the later slots fail on
        obtain ⟨w, failed⟩ := (decodeSlots_eq_error_iff lawful.tail).1 later
        refine ⟨slot.set x w, ?_⟩
        rw [layoutSteps_cons, stored, layoutSteps_set lawful.head_apart, failsAt_append]
        exact .inr ⟨mid, (decodeValue_readsSteps slot.shape).readsBack readX, failed⟩
    · rintro ⟨v, failed⟩
      rw [layoutSteps_cons, failsAt_append] at failed
      rcases failed with early | ⟨mid, front, late⟩
      · exact .inl ((decodeValue_readsSteps slot.shape).error_iff.2 ⟨_, early⟩)
      · obtain ⟨x, readX, -⟩ := (decodeValue_readsSteps slot.shape).ofReadsBack front
        exact .inr ⟨x, mid, readX, (decodeSlots_eq_error_iff lawful.tail).2 ⟨v, late⟩⟩

end Layouts

/-- Reading an entity fails where the reads of the steps of some value of its kind fail, or, when
the steps of a value are all read back, on the bytes left over. -/
theorem decode_eq_error_iff {k : EntityKind} {b : Bytes} {f : Failure} :
    decode k b = .error f ↔
      (∃ v, FailsAt (layoutSteps k.layout v) b f) ∨
        ∃ v rest, ReadsBack (layoutSteps k.layout v) b rest ∧ rest ≠ [] ∧
          f = unreadable s!"{rest.length} trailing bytes" := by
  have lawful := EntityKind.layout_lawful k
  unfold decode
  rw [bind_eq_error]
  constructor
  · rintro (refused | ⟨⟨e, rest⟩, read, checked⟩)
    · exact .inl ((decodeSlots_eq_error_iff lawful).1 refused)
    · dsimp only at checked
      by_cases empty : rest.isEmpty = true
      · rw [if_pos empty] at checked
        cases checked
      · rw [if_neg empty] at checked
        cases checked
        exact .inr ⟨e, rest, decodeSlots_readsBack lawful read, by simpa using empty, rfl⟩
  · rintro (⟨v, failed⟩ | ⟨v, rest, back, trailing, rfl⟩)
    · exact .inl ((decodeSlots_eq_error_iff lawful).2 ⟨v, failed⟩)
    · obtain ⟨e, read⟩ := decodeSlots_of_readsBack k.empty back
      refine .inr ⟨(e, rest), read, ?_⟩
      dsimp only
      rw [if_neg (by simpa using trailing)]
      rfl

/-- Writing and reading report the first failure in layout order. Writing an entity fails exactly
when one of its steps cannot be written while every step before it can, and the failure is that
step's: nothing after it is written. Reading bytes as an entity of a kind fails exactly when, for
some value of the kind, the reads of the steps before one step take those steps back and the read
of that step fails on what they leave, the failure being that read's; or when the reads of the
steps of a whole value take them back and bytes are left over. What a failing read reports is
`Step.read_eq_error_code`. -/
theorem failure_is_first_failing_step :
    (∀ (e : Entity) (f : Failure), encode e = .error f ↔
      ∃ pre t post, entitySteps e = pre ++ t :: post ∧ (∀ u ∈ pre, ∃ w, u.write = .ok w) ∧ t.write = .error f) ∧
    ∀ (k : EntityKind) (b : Bytes) (f : Failure), decode k b = .error f ↔
      (∃ v pre t post rest, layoutSteps k.layout v = pre ++ t :: post ∧ ReadsBack pre b rest ∧
          t.read.run rest = .error f) ∨
        ∃ v rest, ReadsBack (layoutSteps k.layout v) b rest ∧ rest ≠ [] ∧
          f = unreadable s!"{rest.length} trailing bytes" := by
  refine ⟨fun e f => encode_eq_error_iff, fun k b f => ?_⟩
  simp only [decode_eq_error_iff, failsAt_iff]

end MarketData.Borsh
