import Mathlib.Data.List.Dedup

/-! `group by` without an aggregate: one row stands for all rows of its key, and which one
is not said. -/

/-- One row of each key, in the order in which the keys last come. -/
def onePerKey [DecidableEq κ] (key : α → κ) (pick : List α → Option α) (rows : List α) : List α :=
  (rows.map key).dedup.filterMap fun k => pick (rows.filter fun a => key a = k)

/-- A group is represented by one of its rows. -/
def Picks (pick : List α → Option α) : Prop :=
  ∀ group, group ≠ [] → ∃ a ∈ group, pick group = some a

/-- A query for one row, of which no order says which. -/
def queryRow (pick : List α → Option α) : List α → Option α
  | [] => none
  | a :: rows => pick (a :: rows)

namespace OnePerKey
variable {α κ : Type} [DecidableEq κ] {key : α → κ} {pick : List α → Option α} {rows : List α}

theorem picks_head : Picks (List.head? (α := α)) := by
  intro group filled
  cases group with
  | nil => contradiction
  | cons a rest => exact ⟨a, List.mem_cons_self, rfl⟩

/-- A choice that takes one row wherever it can. -/
theorem picks_favourite (favourite : α) :
    ∃ pick, Picks pick ∧ ∀ group, favourite ∈ group → pick group = some favourite := by
  classical
  refine ⟨fun group => if favourite ∈ group then some favourite else group.head?, ?_, ?_⟩
  · intro group filled
    by_cases member : favourite ∈ group
    · exact ⟨favourite, member, if_pos member⟩
    · obtain ⟨a, listed, first⟩ := picks_head group filled
      exact ⟨a, listed, (if_neg member).trans first⟩
  · exact fun group member => if_pos member

theorem queryRow_of_ne_nil (filled : rows ≠ []) : queryRow pick rows = pick rows := by
  cases rows with
  | nil => contradiction
  | cons a rows => rfl

theorem mem_of_queryRow (picks : Picks pick) (found : queryRow pick rows = some a) : a ∈ rows := by
  have filled : rows ≠ [] := by
    rintro rfl
    contradiction
  obtain ⟨b, listed, chosen⟩ := picks rows filled
  rw [queryRow_of_ne_nil filled, chosen] at found
  exact Option.some.inj found ▸ listed

theorem exists_queryRow (picks : Picks pick) (filled : rows ≠ []) :
    ∃ a ∈ rows, queryRow pick rows = some a := by
  rw [queryRow_of_ne_nil filled]
  exact picks rows filled

/-- A choice that answers one row, where it is given, to every query that selects it. -/
theorem picks_row (row : Option α) :
    ∃ pick, Picks pick ∧ ∀ a ∈ row, ∀ rows, a ∈ rows → queryRow pick rows = some a := by
  cases row with
  | none => exact ⟨List.head?, picks_head, nofun⟩
  | some a =>
    obtain ⟨pick, picks, takes⟩ := picks_favourite a
    refine ⟨pick, picks, fun b same rows member => ?_⟩
    cases same
    exact (queryRow_of_ne_nil (List.ne_nil_of_mem member)).trans (takes rows member)

/-- What stands for a key that occurs is a row with that key. -/
theorem picked (picks : Picks pick) (occurs : k ∈ rows.map key) :
    ∃ a, pick (rows.filter fun a => key a = k) = some a ∧ a ∈ rows ∧ key a = k := by
  obtain ⟨b, member, rfl⟩ := List.mem_map.mp occurs
  have inside : b ∈ rows.filter fun a => key a = key b :=
    List.mem_filter.mpr ⟨member, decide_eq_true rfl⟩
  obtain ⟨a, chosen, found⟩ := picks _ (List.ne_nil_of_mem inside)
  obtain ⟨listed, same⟩ := List.mem_filter.mp chosen
  exact ⟨a, found, listed, of_decide_eq_true same⟩

theorem mem_iff (picks : Picks pick) : a ∈ onePerKey key pick rows ↔
    a ∈ rows ∧ pick (rows.filter fun b => key b = key a) = some a := by
  simp only [onePerKey, List.mem_filterMap, List.mem_dedup]
  constructor
  · rintro ⟨k, occurs, chosen⟩
    obtain ⟨a', chosen', listed, rfl⟩ := picked picks occurs
    cases Option.some.inj (chosen'.symm.trans chosen)
    exact ⟨listed, chosen⟩
  · rintro ⟨listed, chosen⟩
    exact ⟨key a, List.mem_map_of_mem listed, chosen⟩

theorem map_key (picks : Picks pick) :
    (onePerKey key pick rows).map key = (rows.map key).dedup := by
  have keyed : ∀ keys : List κ, (∀ k ∈ keys, k ∈ rows.map key) →
      (keys.filterMap fun k => pick (rows.filter fun a => key a = k)).map key = keys := by
    intro keys occur
    induction keys with
    | nil => rfl
    | cons k keys ih =>
      obtain ⟨a, chosen, _, same⟩ := picked picks (occur k List.mem_cons_self)
      simp only [List.filterMap_cons, chosen, List.map_cons, same]
      rw [ih fun k' member => occur k' (List.mem_cons_of_mem k member)]
  exact keyed _ fun k member => List.mem_dedup.mp member

/-- The rows chosen are above all others of their keys, whichever they are, exactly when no
row is below another of its key. -/
theorem greatest_iff (key : α → κ) (le : α → α → Prop) (rows : List α) :
    (∀ pick, Picks pick → ∀ a ∈ onePerKey key pick rows, ∀ b ∈ rows, key b = key a → le b a) ↔
      ∀ a ∈ rows, ∀ b ∈ rows, key b = key a → le b a := by
  constructor
  · intro greatest a listed b listed' same
    obtain ⟨pick, picks, takes⟩ := picks_favourite a
    refine greatest pick picks a ((mem_iff picks).mpr ⟨listed, takes _ ?_⟩) b listed' same
    exact List.mem_filter.mpr ⟨listed, decide_eq_true rfl⟩
  · exact fun level pick picks a chosen => level a ((mem_iff picks).mp chosen).1

end OnePerKey
