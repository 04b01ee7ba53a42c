import Mathlib.Data.List.Basic

/-! Writers that are polled, and the loop of `write_all` around them. A writer may take
part of what it is shown, answer that it is not ready, or fail; what it answers is
what it has taken, which is a field. -/

/-- What a poll comes back with. -/
inductive Poll (α : Type) where
  | pending
  | ready (result : Except String α)
  deriving DecidableEq

/-- `env` is what a poll meets, and an event is what happens to the writer otherwise. -/
structure AsyncWrite (α σ ε ω : Type) where
  pollWrite : σ → ε → List α → Poll Nat × σ
  event : σ → ω → σ
  /-- everything that was ever taken -/
  taken : σ → List α
  takes : ∀ s env buf n, (pollWrite s env buf).1 = .ready (.ok n) →
    taken (pollWrite s env buf).2 = taken s ++ buf.take n
  declines : ∀ s env buf, (∀ n, (pollWrite s env buf).1 ≠ .ready (.ok n)) →
    taken (pollWrite s env buf).2 = taken s
  steady : ∀ s e, taken (event s e) = taken s

/-- What is left to do after a turn of the loop. -/
inductive WriteAll (α : Type) where
  | wrote
  | left (rest : List α)
  | failed (error : String)
  deriving DecidableEq

namespace AsyncWrite
variable {α σ ε ω : Type} (w : AsyncWrite α σ ε ω)

/-- One turn of the loop of `write_all`, which shows the writer what is left. -/
def writeTurn (s : σ) (env : ε) (rest : List α) : WriteAll α × σ :=
  match w.pollWrite s env rest with
  | (.pending, t) => (.left rest, t)
  | (.ready (.error error), t) => (.failed error, t)
  | (.ready (.ok 0), t) => (.failed "Kind(WriteZero)", t)
  | (.ready (.ok n), t) => (if rest.drop n = [] then .wrote else .left (rest.drop n), t)

variable {w}

theorem writeTurn_pending {s t : σ} (pending : w.pollWrite s env rest = (.pending, t)) :
    w.writeTurn s env rest = (.left rest, t) := by
  simp only [writeTurn, pending]

/-- A turn is one poll. -/
theorem writeTurn_polls (s : σ) (env : ε) (rest : List α) :
    (w.writeTurn s env rest).2 = (w.pollWrite s env rest).2 := by
  unfold writeTurn
  split <;> rename_i polled <;> rw [polled]

/-- A turn takes a first part of what was left, and leaves the other. -/
theorem writeTurn_taken (s : σ) (env : ε) (rest : List α) :
    ∃ now later, rest = now ++ later ∧
      w.taken (w.writeTurn s env rest).2 = w.taken s ++ now ∧
      ((w.writeTurn s env rest).1 = .wrote → later = []) ∧
      ∀ left, (w.writeTurn s env rest).1 = .left left → later = left ∧ (left = [] → rest = []) := by
  have declines := w.declines s env rest
  have takes := w.takes s env rest
  unfold writeTurn
  split
  · rename_i t polled
    rw [polled] at declines
    refine ⟨[], rest, rfl, ?_, by simp, by simp⟩
    rw [List.append_nil]
    exact declines (by simp)
  · rename_i error t polled
    rw [polled] at declines
    refine ⟨[], rest, rfl, ?_, by simp, by simp⟩
    rw [List.append_nil]
    exact declines (by simp)
  · rename_i t polled
    rw [polled] at takes
    exact ⟨[], rest, rfl, takes 0 rfl, by simp, by simp⟩
  · rename_i n t _ polled
    rw [polled] at takes
    refine ⟨rest.take n, rest.drop n, (List.take_append_drop n rest).symm, takes n rfl, ?_, ?_⟩
    · intro wrote
      by_contra more
      simp [more] at wrote
    · intro left same
      by_cases spent : rest.drop n = []
      · simp [spent] at same
      · rw [if_neg spent] at same
        cases same
        exact ⟨rfl, fun none => absurd none spent⟩

end AsyncWrite
