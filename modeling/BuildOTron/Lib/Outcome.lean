import Mathlib.Data.List.Forall2

/-! How a fallible call ends: with a value, with an error its caller can inspect,
or by unwinding the task that made it. -/

inductive Outcome (ε α : Type) where
  | ok (value : α)
  | err (error : ε)
  | panic
  deriving DecidableEq, Repr

namespace Outcome
variable {ε α β : Type}

def bind : Outcome ε α → (α → Outcome ε β) → Outcome ε β
  | .ok value, next => next value
  | .err error, _ => .err error
  | .panic, _ => .panic

instance : Monad (Outcome ε) where
  pure := .ok
  bind := bind

/-- The `expect` and `unwrap` of a call: its error becomes a panic. -/
def expect {δ : Type} : Outcome ε α → Outcome δ α
  | .ok value => .ok value
  | .err _ | .panic => .panic

/-- The same on a `Result` that is still at hand. -/
def unwrap {δ : Type} : Except δ α → Outcome ε α
  | .ok value => .ok value
  | .error _ => .panic

/-- `map_err`. -/
def mapErr {δ : Type} (convert : ε → δ) : Outcome ε α → Outcome δ α
  | .ok value => .ok value
  | .err error => .err (convert error)
  | .panic => .panic

/-- The `Result` of a call that does not panic, for a caller that inspects it. -/
def attempt {δ : Type} : Outcome ε α → Outcome δ (Except ε α)
  | .ok value => .ok (.ok value)
  | .err error => .ok (.error error)
  | .panic => .panic

def isErr : Outcome ε α → Bool
  | .err _ => true
  | .ok _ | .panic => false

/-- An early return of an error. -/
def ensure (holds : Bool) (error : ε) : Outcome ε Unit := if holds then .ok () else .err error

/-- `assert!`. -/
def assert (holds : Bool) : Outcome ε Unit := if holds then .ok () else .panic

/-- `expect` on an optional value. -/
def expectSome : Option α → Outcome ε α
  | some value => .ok value
  | none => .panic

@[simp] theorem ok_bind (value : α) (next : α → Outcome ε β) :
    (Outcome.ok value >>= next) = next value := rfl

@[simp] theorem err_bind (error : ε) (next : α → Outcome ε β) :
    (Outcome.err error >>= next) = .err error := rfl

@[simp] theorem panic_bind (next : α → Outcome ε β) :
    (Outcome.panic >>= next) = .panic := rfl

@[simp] theorem pure_eq (value : α) : (pure value : Outcome ε α) = .ok value := rfl

theorem bind_eq_ok {first : Outcome ε α} {next : α → Outcome ε β} {value : β} :
    (first >>= next) = .ok value ↔ ∃ a, first = .ok a ∧ next a = .ok value := by
  cases first <;> simp

theorem bind_eq_panic {first : Outcome ε α} {next : α → Outcome ε β} :
    (first >>= next) = .panic ↔ first = .panic ∨ ∃ a, first = .ok a ∧ next a = .panic := by
  cases first <;> simp

theorem bind_eq_err {first : Outcome ε α} {next : α → Outcome ε β} {error : ε} :
    (first >>= next) = .err error ↔
      first = .err error ∨ ∃ a, first = .ok a ∧ next a = .err error := by
  cases first <;> simp

theorem exists_bind_eq_ok {first : Outcome ε α} {next : α → Outcome ε β} :
    (∃ value, (first >>= next) = .ok value) ↔
      ∃ a, first = .ok a ∧ ∃ value, next a = .ok value := by
  cases first <;> simp

@[simp] theorem expectSome_some (value : α) :
    (expectSome (some value) : Outcome ε α) = .ok value := rfl

@[simp] theorem expectSome_none : (expectSome none : Outcome ε α) = .panic := rfl

@[simp] theorem expectSome_eq_ok {found : Option α} {value : α} :
    (expectSome found : Outcome ε α) = .ok value ↔ found = some value := by
  cases found <;> simp [expectSome]

@[simp] theorem expectSome_eq_panic {found : Option α} :
    (expectSome found : Outcome ε α) = .panic ↔ found = none := by
  cases found <;> simp [expectSome]

theorem expectSome_ne_err (found : Option α) (error : ε) : expectSome found ≠ .err error := by
  cases found <;> simp [expectSome]

@[simp] theorem unwrap_ok {δ : Type} (value : α) :
    (unwrap (.ok value : Except δ α) : Outcome ε α) = .ok value := rfl

@[simp] theorem unwrap_error {δ : Type} (error : δ) :
    (unwrap (.error error : Except δ α) : Outcome ε α) = .panic := rfl

/-- An `unwrap` and what follows it get through when both do. -/
theorem unwrap_eq_ok {δ : Type} {res : Except δ α} {value : α} :
    (unwrap res : Outcome ε α) = .ok value ↔ res = .ok value := by
  cases res <;> simp

theorem unwrap_bind_ne_panic {δ : Type} {res : Except δ α} {next : α → Outcome ε β} :
    (unwrap res >>= next) ≠ .panic ↔ ∃ value, res = .ok value ∧ next value ≠ .panic := by
  cases res <;> simp

theorem assert_bind_ne_panic {holds : Bool} {next : Unit → Outcome ε β} :
    (assert holds >>= next) ≠ .panic ↔ holds = true ∧ next () ≠ .panic := by
  cases holds <;> simp [assert]

theorem mapErr_eq_ok {δ : Type} {convert : ε → δ} {outcome : Outcome ε α} {value : α} :
    outcome.mapErr convert = .ok value ↔ outcome = .ok value := by
  cases outcome <;> simp [mapErr]

theorem mapErr_eq_panic {δ : Type} {convert : ε → δ} {outcome : Outcome ε α} :
    outcome.mapErr convert = .panic ↔ outcome = .panic := by
  cases outcome <;> simp [mapErr]

theorem expect_eq_ok {δ : Type} {outcome : Outcome ε α} {value : α} :
    (outcome.expect : Outcome δ α) = .ok value ↔ outcome = .ok value := by
  cases outcome <;> simp [expect]

theorem expect_eq_panic {δ : Type} {outcome : Outcome ε α} :
    (outcome.expect : Outcome δ α) = .panic ↔ ∀ value, outcome ≠ .ok value := by
  cases outcome <;> simp [expect]

theorem ensure_eq_ok {holds : Bool} {error : ε} {value : Unit} :
    ensure holds error = .ok value ↔ holds = true := by
  cases holds <;> simp [ensure]

theorem ensure_ne_panic (holds : Bool) (error : ε) : ensure holds error ≠ .panic := by
  cases holds <;> simp [ensure]

theorem bind_assoc {γ : Type} (outcome : Outcome ε α) (first : α → Outcome ε β)
    (later : β → Outcome ε γ) :
    outcome >>= first >>= later = outcome >>= fun value => first value >>= later := by
  cases outcome <;> rfl

instance : LawfulMonad (Outcome ε) :=
  LawfulMonad.mk' _ (fun outcome => by cases outcome <;> rfl) (fun _ _ => rfl) bind_assoc

theorem map_eq_ok {f : α → β} {outcome : Outcome ε α} {value : β} :
    f <$> outcome = .ok value ↔ ∃ a, outcome = .ok a ∧ f a = value := by
  simp only [map_eq_pure_bind, bind_eq_ok, pure_eq, ok.injEq]

theorem map_eq_panic {f : α → β} {outcome : Outcome ε α} :
    f <$> outcome = .panic ↔ outcome = .panic := by
  simp [map_eq_pure_bind, bind_eq_panic]

section Sequences
variable {f : α → Outcome ε β}

/-- Calls made one after another return what each of them returns. -/
theorem mapM_eq_ok {items : List α} {values : List β} : items.mapM f = .ok values ↔
    List.Forall₂ (fun item value => f item = .ok value) items values := by
  induction items generalizing values with
  | nil =>
    rw [List.mapM_nil, List.forall₂_nil_left_iff, pure_eq, ok.injEq]
    exact eq_comm
  | cons item items ih =>
    simp only [List.mapM_cons, bind_eq_ok, ih, pure_eq, ok.injEq]
    constructor
    · rintro ⟨value, first, rest, others, rfl⟩
      exact .cons first others
    · intro all
      cases all with
      | cons first others => exact ⟨_, first, _, others, rfl⟩

theorem exists_mapM_eq_ok {items : List α} : (∃ values, items.mapM f = .ok values) ↔
    ∀ item ∈ items, ∃ value, f item = .ok value := by
  induction items with
  | nil => simp
  | cons item items ih =>
    simp only [List.mapM_cons, bind_eq_ok, pure_eq, ok.injEq, List.forall_mem_cons, ← ih]
    constructor
    · rintro ⟨_, value, first, rest, others, _⟩
      exact ⟨⟨value, first⟩, ⟨rest, others⟩⟩
    · rintro ⟨⟨value, first⟩, ⟨rest, others⟩⟩
      exact ⟨_, value, first, rest, others, rfl⟩

/-- They panic at the first one that does, if none before it fails. -/
theorem mapM_eq_panic {items : List α} : items.mapM f = .panic ↔
    ∃ i, ∃ bound : i < items.length, f items[i] = .panic ∧
      ∀ j, ∀ before : j < i, ∃ value, f items[j] = .ok value := by
  induction items with
  | nil => simp
  | cons item items ih =>
    simp only [List.mapM_cons, bind_eq_panic, ih, pure_eq, reduceCtorEq, and_false, exists_false,
      or_false]
    constructor
    · rintro (first | ⟨value, first, i, bound, later, ready⟩)
      · exact ⟨0, by simp, first, by simp⟩
      · refine ⟨i + 1, by simpa using bound, later, ?_⟩
        intro j before
        cases j with
        | zero => exact ⟨value, first⟩
        | succ j => exact ready j (by omega)
    · rintro ⟨i, bound, panics, ready⟩
      cases i with
      | zero => exact .inl panics
      | succ i =>
        obtain ⟨value, first⟩ := ready 0 (by omega)
        refine .inr ⟨value, first, i, by simpa using bound, panics, ?_⟩
        intro j before
        exact ready (j + 1) (by omega)

variable {γ : Type} {step : γ → α → Outcome ε γ}

/-- A fold whose steps succeed or not by their items alone. -/
theorem foldlM_eq_ok {Fits : α → Prop} (each : ∀ c item, (∃ d, step c item = .ok d) ↔ Fits item)
    {items : List α} {c : γ} :
    (∃ d, items.foldlM step c = .ok d) ↔ ∀ item ∈ items, Fits item := by
  induction items generalizing c with
  | nil => simp
  | cons item items ih =>
    simp only [List.foldlM_cons, bind_eq_ok, List.forall_mem_cons]
    constructor
    · rintro ⟨d, e, first, rest⟩
      exact ⟨(each c item).mp ⟨e, first⟩, ih.mp ⟨d, rest⟩⟩
    · rintro ⟨first, rest⟩
      obtain ⟨e, first⟩ := (each c item).mpr first
      obtain ⟨d, rest⟩ := (ih (c := e)).mpr rest
      exact ⟨d, e, first, rest⟩

theorem foldlM_ne_panic (each : ∀ c item, step c item ≠ .panic) (items : List α) (c : γ) :
    items.foldlM step c ≠ .panic := by
  induction items generalizing c with
  | nil => simp
  | cons item items ih =>
    rw [List.foldlM_cons, ne_eq, bind_eq_panic]
    rintro (first | ⟨d, _, rest⟩)
    · exact each c item first
    · exact ih d rest

end Sequences

end Outcome

/-- Unsigned subtraction: going below zero panics. -/
def checkedSub {ε : Type} (a b : Nat) : Outcome ε Nat := if b ≤ a then .ok (a - b) else .panic

theorem checkedSub_eq_ok {ε : Type} {a b c : Nat} :
    (checkedSub a b : Outcome ε Nat) = .ok c ↔ b ≤ a ∧ c = a - b := by
  unfold checkedSub
  split
  · rename_i fits
    rw [Outcome.ok.injEq]
    exact ⟨fun same => ⟨fits, same.symm⟩, fun both => both.2.symm⟩
  · rename_i low
    exact iff_of_false nofun fun both => low both.1
