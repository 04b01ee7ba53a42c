import BuildOTron.Lib.Outcome
import Mathlib.Order.Defs.Unbundled

/-! Calls that change a state as they go and may fail or panic: what was done before
a failure stays done. A call keeps a relation when it moves the state along it,
however it ends. -/

def Effect (σ ε α : Type) := σ → Outcome ε α × σ

namespace Effect
variable {σ ε δ α β : Type}

def bind (first : Effect σ ε α) (next : α → Effect σ ε β) : Effect σ ε β := fun s =>
  match first s with
  | (.ok value, t) => next value t
  | (.err error, t) => (.err error, t)
  | (.panic, t) => (.panic, t)

instance : Monad (Effect σ ε) where
  pure value s := (.ok value, s)
  bind := bind

/-- A call that only looks at its arguments. -/
def lift (outcome : Outcome ε α) : Effect σ ε α := fun s => (outcome, s)

def modify (change : σ → σ) : Effect σ ε Unit := fun s => (.ok (), change s)

/-- A call whose outcome is handed to its caller in another form. -/
def map (convert : Outcome ε α → Outcome δ β) (effect : Effect σ ε α) : Effect σ δ β := fun s =>
  (convert (effect s).1, (effect s).2)

@[simp] theorem pure_apply (value : α) (s : σ) : (pure value : Effect σ ε α) s = (.ok value, s) := rfl

@[simp] theorem lift_apply (outcome : Outcome ε α) (s : σ) : lift outcome s = (outcome, s) := rfl

@[simp] theorem modify_apply (change : σ → σ) (s : σ) :
    (modify change : Effect σ ε Unit) s = (.ok (), change s) := rfl

@[simp] theorem map_fst (convert : Outcome ε α → Outcome δ β) (effect : Effect σ ε α) (s : σ) :
    (effect.map convert s).1 = convert (effect s).1 := rfl

@[simp] theorem map_snd (convert : Outcome ε α → Outcome δ β) (effect : Effect σ ε α) (s : σ) :
    (effect.map convert s).2 = (effect s).2 := rfl

theorem bind_of_eq {first : Effect σ ε α} {next : α → Effect σ ε β} {s t : σ}
    (ended : first s = (.ok value, t)) : (first >>= next) s = next value t := by
  show Effect.bind first next s = _
  simp only [Effect.bind, ended]

theorem lift_ok_bind (value : α) (next : α → Effect σ ε β) (s : σ) :
    (lift (.ok value) >>= next) s = next value s := rfl

theorem lift_panic_bind (next : α → Effect σ ε β) (s : σ) :
    (lift .panic >>= next) s = (.panic, s) := rfl

theorem bind_of_ok {first : Effect σ ε α} {next : α → Effect σ ε β} {s : σ}
    (ended : (first s).1 = .ok value) : (first >>= next) s = next value (first s).2 := by
  show Effect.bind first next s = _
  unfold Effect.bind
  split <;> simp_all

theorem bind_of_err {first : Effect σ ε α} {next : α → Effect σ ε β} {s : σ}
    (ended : (first s).1 = .err error) : (first >>= next) s = (.err error, (first s).2) := by
  show Effect.bind first next s = _
  unfold Effect.bind
  split <;> simp_all

theorem bind_of_panic {first : Effect σ ε α} {next : α → Effect σ ε β} {s : σ}
    (ended : (first s).1 = .panic) : (first >>= next) s = (.panic, (first s).2) := by
  show Effect.bind first next s = _
  unfold Effect.bind
  split <;> simp_all

theorem bind_eq_ok {first : Effect σ ε α} {next : α → Effect σ ε β} {s : σ} {value : β} :
    ((first >>= next) s).1 = .ok value ↔
      ∃ a, (first s).1 = .ok a ∧ (next a (first s).2).1 = .ok value := by
  cases ended : (first s).1 with
  | ok a => simp [bind_of_ok ended]
  | err error => simp [bind_of_err ended]
  | panic => simp [bind_of_panic ended]

theorem bind_eq_panic {first : Effect σ ε α} {next : α → Effect σ ε β} {s : σ} :
    ((first >>= next) s).1 = .panic ↔ (first s).1 = .panic ∨
      ∃ a, (first s).1 = .ok a ∧ (next a (first s).2).1 = .panic := by
  cases ended : (first s).1 with
  | ok a => simp [bind_of_ok ended]
  | err error => simp [bind_of_err ended]
  | panic => simp [bind_of_panic ended]

/-- A call on the state that leaves it alone when it fails. -/
def call (f : σ → Outcome ε (σ × α)) : Effect σ ε α := fun s =>
  match f s with
  | .ok (t, value) => (.ok value, t)
  | .err error => (.err error, s)
  | .panic => (.panic, s)

/-- A call that only reads the state. -/
def read (f : σ → Outcome ε α) : Effect σ ε α := fun s => (f s, s)

@[simp] theorem read_apply (f : σ → Outcome ε α) (s : σ) : read f s = (f s, s) := rfl

theorem call_eq_ok {f : σ → Outcome ε (σ × α)} {s : σ} {value : α}
    (ended : (call f s).1 = .ok value) : f s = .ok ((call f s).2, value) := by
  simp only [call] at ended ⊢
  split at ended <;> simp_all

theorem call_relates {R : σ → σ → Prop} [Std.Refl R] {f : σ → Outcome ε (σ × α)} {s : σ}
    (called : ∀ t value, f s = .ok (t, value) → R s t) : R s (call f s).2 := by
  unfold call
  split
  · exact called _ _ ‹_›
  · exact Std.Refl.refl s
  · exact Std.Refl.refl s

/-- What two calls do, one after the other, when the second knows how the first ended. -/
theorem bind_relates {R : σ → σ → Prop} [IsTrans σ R] {first : Effect σ ε α}
    {next : α → Effect σ ε β} {s : σ} (start : R s (first s).2)
    (later : ∀ value, (first s).1 = .ok value → R (first s).2 (next value (first s).2).2) :
    R s ((first >>= next) s).2 := by
  cases ended : (first s).1 with
  | ok value =>
    rw [bind_of_ok ended]
    exact IsTrans.trans s _ _ start (later value ended)
  | err error =>
    rw [bind_of_err ended]
    exact start
  | panic =>
    rw [bind_of_panic ended]
    exact start

section Attempt
variable {effect : Effect σ ε α} {next : Except ε α → Effect σ δ β} {s : σ}

theorem attempt_of_ok (ended : (effect s).1 = .ok value) :
    (effect.map .attempt >>= next) s = next (.ok value) (effect s).2 :=
  bind_of_ok (congrArg Outcome.attempt ended)

theorem attempt_of_err (ended : (effect s).1 = .err error) :
    (effect.map .attempt >>= next) s = next (.error error) (effect s).2 :=
  bind_of_ok (congrArg Outcome.attempt ended)

theorem attempt_of_panic (ended : (effect s).1 = .panic) :
    (effect.map .attempt >>= next) s = (.panic, (effect s).2) :=
  bind_of_panic (congrArg Outcome.attempt ended)

end Attempt

section Keeps
variable {R : σ → σ → Prop}

def Keeps (R : σ → σ → Prop) (effect : Effect σ ε α) : Prop := ∀ s, R s (effect s).2

theorem keeps_lift [Std.Refl R] (outcome : Outcome ε α) : Keeps R (lift outcome) :=
  fun s => Std.Refl.refl s

theorem keeps_pure [Std.Refl R] (value : α) : Keeps R (pure value : Effect σ ε α) :=
  fun s => Std.Refl.refl s

theorem keeps_modify {change : σ → σ} (changes : ∀ s, R s (change s)) :
    Keeps R (modify change : Effect σ ε Unit) := changes

theorem Keeps.map {effect : Effect σ ε α} (keeps : Keeps R effect)
    (convert : Outcome ε α → Outcome δ β) : Keeps R (effect.map convert) := keeps

theorem Keeps.bind [IsTrans σ R] {first : Effect σ ε α} {next : α → Effect σ ε β}
    (keeps : Keeps R first) (later : ∀ value, Keeps R (next value)) : Keeps R (first >>= next) :=
  fun s => bind_relates (keeps s) fun value _ => later value (first s).2

end Keeps
end Effect
