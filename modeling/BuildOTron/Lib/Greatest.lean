import BuildOTron.Lib.TopK
import Mathlib.Data.List.MinMax
import Mathlib.Order.WithBot

/-! A query for the first row by a descending key: one of the greatest, where there are
rows, and among equals any. -/

def Greatest {α κ : Type} [LinearOrder κ] (key : α → κ) (rows : List α) : Option α → Prop
  | none => rows = []
  | some a => a ∈ rows ∧ ∀ b ∈ rows, key b ≤ key a

namespace Greatest
variable {α β κ : Type} [LinearOrder κ] {key : α → κ} {rows : List α} {answer : Option α}

theorem exists_answer (key : α → κ) (rows : List α) : ∃ answer, Greatest key rows answer := by
  cases greatest : rows.argmax key with
  | none => exact ⟨none, List.argmax_eq_none.mp greatest⟩
  | some a =>
    refine ⟨some a, List.argmax_mem greatest, fun b member => ?_⟩
    exact List.le_of_mem_argmax member greatest

/-- An answer that meets a condition when one of the greatest does. -/
theorem exists_adverse (key : α → κ) (rows : List α) (p : α → Prop) :
    ∃ answer, Greatest key rows answer ∧
      ∀ a, Greatest key rows (some a) → p a → ∃ b, answer = some b ∧ p b := by
  by_cases met : ∃ a, Greatest key rows (some a) ∧ p a
  · obtain ⟨a, greatest, holds⟩ := met
    exact ⟨some a, greatest, fun _ _ _ => ⟨a, rfl, holds⟩⟩
  · obtain ⟨answer, greatest⟩ := exists_answer key rows
    exact ⟨answer, greatest, fun a first holds => absurd ⟨a, first, holds⟩ met⟩

theorem exists_of_ne_nil (greatest : Greatest key rows answer) (filled : rows ≠ []) :
    ∃ a, answer = some a := by
  cases answer with
  | none => exact absurd greatest filled
  | some a => exact ⟨a, rfl⟩

theorem of_sorted {sorted : List α} (same : rows.Perm sorted)
    (order : sorted.Pairwise fun a b => key b ≤ key a) : Greatest key rows sorted.head? := by
  cases sorted with
  | nil => exact List.perm_nil.mp same
  | cons a rest =>
    refine ⟨same.mem_iff.mpr List.mem_cons_self, fun b member => ?_⟩
    rcases List.mem_cons.mp (same.mem_iff.mp member) with rfl | later
    · exact le_refl _
    · exact List.rel_of_pairwise_cons order later

/-- The best of one is a greatest. -/
theorem of_top (top : TopK key 1 rows best) : Greatest key rows best.getLast? := by
  obtain ⟨few, rest, same, order, full⟩ := top
  match best with
  | [] =>
    have none : rest = [] := by
      by_contra more
      exact absurd (full more) (by simp)
    rw [none] at same
    exact List.perm_nil.mp same
  | [a] =>
    refine ⟨same.mem_iff.mpr List.mem_cons_self, fun b member => ?_⟩
    rcases List.mem_cons.mp (same.mem_iff.mp member) with rfl | left
    · exact le_refl _
    · exact order a List.mem_cons_self b left
  | _ :: _ :: _ => simp at few

/-- One more row, which is kept when it is above. -/
theorem keep (greatest : Greatest key rows answer) (a : α) :
    Greatest key (rows ++ [a]) (if answer.all fun b => key b < key a then some a else answer) := by
  cases answer with
  | none =>
    cases (show rows = [] from greatest)
    exact ⟨List.mem_singleton.mpr rfl, by simp⟩
  | some b =>
    rw [Option.all_some]
    split
    · rename_i below
      have below := of_decide_eq_true below
      refine ⟨by simp, fun c member => ?_⟩
      rcases List.mem_append.mp member with old | new
      · exact le_of_lt (lt_of_le_of_lt (greatest.2 c old) below)
      · rw [List.mem_singleton.mp new]
    · rename_i above
      have above := not_lt.mp fun below => above (decide_eq_true below)
      refine ⟨List.mem_append_left _ greatest.1, fun c member => ?_⟩
      rcases List.mem_append.mp member with old | new
      · exact greatest.2 c old
      · rw [List.mem_singleton.mp new]
        exact above

end Greatest
