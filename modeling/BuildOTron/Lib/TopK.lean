import Mathlib.Data.List.Sort

/-! The `k` greatest of a list by a key, whichever are taken among equals. The greatest of
several lists are among the greatest of each, so each may be cut before they are joined. -/

structure TopK {α κ : Type} [LinearOrder κ] (key : α → κ) (k : Nat) (all best : List α) :
    Prop where
  few : best.length ≤ k
  chosen : ∃ rest, all.Perm (best ++ rest) ∧ (∀ a ∈ best, ∀ b ∈ rest, key b ≤ key a) ∧
    (rest ≠ [] → best.length = k)

namespace TopK
variable {α κ : Type} [LinearOrder κ] {key : α → κ} {k : Nat} {all best : List α}

theorem of_sorted {sorted : List α} (same : all.Perm sorted)
    (order : sorted.Pairwise fun a b => key b ≤ key a) : TopK key k all (sorted.take k) := by
  refine ⟨List.length_take_le k sorted, sorted.drop k, ?_, ?_, ?_⟩
  · rwa [List.take_append_drop]
  · rw [← List.take_append_drop k sorted] at order
    exact (List.pairwise_append.mp order).2.2
  · intro more
    rw [List.length_take, Nat.min_eq_left]
    exact Nat.le_of_not_ge fun short => more (List.drop_eq_nil_of_le short)

theorem length_eq (top : TopK key k all best) : best.length = min k all.length := by
  obtain ⟨few, rest, same, _, full⟩ := top
  rw [same.length_eq, List.length_append]
  cases rest with
  | nil => simpa using few
  | cons b rest => rw [full (List.cons_ne_nil b rest), Nat.min_eq_left (Nat.le_add_right _ _)]

theorem mem (top : TopK key k all best) (member : a ∈ best) : a ∈ all := by
  obtain ⟨_, rest, same, _⟩ := top
  exact same.mem_iff.mpr (List.mem_append_left rest member)

theorem nodup_map {f : α → β} (top : TopK key k all best) (unique : (all.map f).Nodup) :
    (best.map f).Nodup := by
  obtain ⟨_, rest, same, _⟩ := top
  have parts := (same.map f).nodup_iff.mp unique
  rw [List.map_append] at parts
  exact parts.of_append_left

theorem perm {all' : List α} (top : TopK key k all best) (same : all'.Perm all) :
    TopK key k all' best := by
  obtain ⟨few, rest, parts, order, full⟩ := top
  exact ⟨few, rest, same.trans parts, order, full⟩

/-- When something is greater than one of the best, the rest is not. -/
theorem none_above {rest : List α} (order : ∀ a ∈ best, ∀ b ∈ rest, key b ≤ key a)
    (member : a ∈ best) (below : key a < bound) :
    rest.countP (fun b => bound ≤ key b) = 0 := by
  rw [List.countP_eq_zero]
  intro b left
  have least := order a member b left
  simpa using lt_of_le_of_lt least below

/-- A part may be cut to its own greatest. Were one that is cut off greater than one that is
taken, the `k` that stand before it would all have been taken. -/
theorem widen {part cut others : List α} (top : TopK key k (cut ++ others) best)
    (first : TopK key k part cut) : TopK key k (part ++ others) best := by
  obtain ⟨few, rest, same, order, full⟩ := top
  obtain ⟨_, off, parts, above, enough⟩ := first
  refine ⟨few, rest ++ off, ?_, ?_, ?_⟩
  · calc List.Perm (part ++ others) (cut ++ off ++ others) := parts.append_right others
      List.Perm _ (cut ++ others ++ off) := by
        rw [List.append_assoc, List.append_assoc]
        exact List.perm_append_comm.append_left cut
      List.Perm _ (best ++ (rest ++ off)) := by
        rw [← List.append_assoc]
        exact same.append_right off
  · intro a taken b left
    rcases List.mem_append.mp left with left | cutOff
    · exact order a taken b left
    · by_contra greater
      have below : key a < key b := not_le.mp greater
      have before : cut.countP (fun c => key b ≤ key c) = k := by
        rw [← enough (List.ne_nil_of_mem cutOff), List.countP_eq_length]
        exact fun c member => decide_eq_true (above c member b cutOff)
      have counted := same.countP_eq fun c => decide (key b ≤ key c)
      rw [List.countP_append, List.countP_append, before, none_above order taken below] at counted
      have strict : best.countP (fun c => key b ≤ key c) < best.length := by
        refine Nat.lt_of_le_of_ne List.countP_le_length fun all => ?_
        have every := List.countP_eq_length.mp all a taken
        exact greater (of_decide_eq_true every)
      omega
  · intro more
    by_cases none : rest = []
    · rw [none, List.nil_append] at more
      have long := same.length_eq
      rw [none, List.append_nil, List.length_append, enough more] at long
      omega
    · exact full none

/-- Lists that are each cut to their own greatest. -/
theorem flatten {alls bests : List (List α)} (cuts : List.Forall₂ (TopK key k) alls bests)
    (others : List α) (top : TopK key k (bests.flatten ++ others) best) :
    TopK key k (alls.flatten ++ others) best := by
  induction cuts generalizing others with
  | nil => exact top
  | @cons part cut alls bests first _ ih =>
    rw [List.flatten_cons, List.append_assoc] at top ⊢
    have swapped (front back : List α) :
        List.Perm (back ++ (front ++ others)) (front ++ (back ++ others)) :=
      (List.perm_append_comm_assoc back front others)
    exact (ih (part ++ others) ((top.widen first).perm (swapped part _))).perm
      (swapped _ part)

/-- In order, the keys of the best are the first of all the keys in order. -/
theorem keys (top : TopK key k all best) (order : best.Pairwise fun a b => key b ≤ key a) :
    best.map key = ((all.map key).insertionSort fun a b => b ≤ a).take k := by
  obtain ⟨few, rest, same, above, full⟩ := top
  let others := (rest.map key).insertionSort fun a b => b ≤ a
  have sorted : (best.map key ++ others).Pairwise fun a b => b ≤ a := by
    refine List.pairwise_append.mpr ⟨List.pairwise_map.mpr order, ?_, ?_⟩
    · exact List.pairwise_insertionSort _ _
    · intro high taken low left
      obtain ⟨a, member, rfl⟩ := List.mem_map.mp taken
      obtain ⟨b, remains, rfl⟩ := List.mem_map.mp ((List.mem_insertionSort _).mp left)
      exact above a member b remains
  have parts : List.Perm (all.map key) (best.map key ++ others) := by
    refine (same.map key).trans ?_
    rw [List.map_append]
    exact (List.perm_insertionSort _ _).symm.append_left _
  have whole : (all.map key).insertionSort (fun a b => b ≤ a) = best.map key ++ others := by
    refine ((List.perm_insertionSort _ _).trans parts).eq_of_pairwise ?_
      (List.pairwise_insertionSort _ _) sorted
    exact fun a b _ _ up down => le_antisymm down up
  rw [whole]
  by_cases none : rest = []
  · have empty : others = [] := by simp [others, none]
    rw [empty, List.append_nil, List.take_of_length_le (by rwa [List.length_map])]
  · rw [List.take_left' (by rw [List.length_map, full none])]

end TopK
