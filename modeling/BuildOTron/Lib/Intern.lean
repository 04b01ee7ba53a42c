import BuildOTron.Lib.Table

/-! Values kept once each in a table: a value is inserted unless a row has its key, and
then looked up by all it holds. What comes back is the value's own row as long as no two
of the values have one key and differ. -/
namespace Table
variable {α κ : Type} {key : α → κ} {t u : Table α}
  {seen values : List α} {value : α}

theorem select_isEmpty {p : α → Bool} : (t.select p).isEmpty = true ↔
    ∀ id value, t.get? id = some value → p value = false := by
  rw [List.isEmpty_iff, List.eq_nil_iff_forall_not_mem]
  constructor
  · intro none id value found
    rw [← Bool.not_eq_true]
    exact fun meets => none (id, value) (mem_select.mpr ⟨found, meets⟩)
  · intro none row member
    obtain ⟨found, meets⟩ := mem_select.mp member
    rw [none row.1 row.2 found] at meets
    contradiction

/-- The rows are the values seen so far, and no two rows have one key. -/
structure Interned (key : α → κ) (t : Table α) (seen : List α) : Prop where
  known : ∀ value ∈ seen, ∃ id, t.get? id = some value
  rows : ∀ id value, t.get? id = some value → value ∈ seen
  keyed : ∀ i j a b, t.get? i = some a → t.get? j = some b → key a = key b → i = j

theorem interned_empty (none : t.rows = []) : Interned key t [] where
  known := by simp
  rows id value found := by
    rw [get?_eq_some, none] at found
    contradiction
  keyed i j a b found := by
    rw [get?_eq_some, none] at found
    contradiction

/-- A value seen again. -/
theorem Interned.again (interned : Interned key t seen) (member : value ∈ seen) :
    Interned key t (seen ++ [value]) := by
  refine ⟨?_, fun j b held => List.mem_append_left _ (interned.rows j b held), interned.keyed⟩
  intro other among
  rcases List.mem_append.mp among with old | new
  · exact interned.known other old
  · rw [List.mem_singleton.mp new]
    exact interned.known value member

/-- A value with a key of its own. -/
theorem Interned.insert (interned : Interned key t seen)
    (apart : ∀ j b, t.get? j = some b → key b ≠ key value) :
    Interned key (t.insert value) (seen ++ [value]) := by
  have cases : ∀ {j b}, (t.insert value).get? j = some b → j = t.seq + 1 ∧ b = value ∨ t.get? j = some b := by
    intro j b found
    rw [get?_insert] at found
    split at found
    · exact .inl ⟨‹_›, (Option.some.inj found).symm⟩
    · exact .inr found
  refine ⟨?_, ?_, ?_⟩
  · intro other among
    rcases List.mem_append.mp among with old | new
    · obtain ⟨id, found⟩ := interned.known other old
      exact ⟨id, get?_insert_of_some found value⟩
    · rw [List.mem_singleton.mp new]
      exact ⟨_, get?_insert_self t value⟩
  · intro j b found
    obtain ⟨_, rfl⟩ | old := cases found
    · exact List.mem_append_right _ (List.mem_singleton_self b)
    · exact List.mem_append_left _ (interned.rows j b old)
  · intro i j a b foundA foundB same
    obtain ⟨rfl, rfl⟩ | oldA := cases foundA <;> obtain ⟨rfl, rfl⟩ | oldB := cases foundB
    · rfl
    · exact absurd same.symm (apart j b oldB)
    · exact absurd same (apart i a oldA)
    · exact interned.keyed i j a b oldA oldB same

/-- The values agree wherever two of them, new or seen, share a key. -/
def Consistent (key : α → κ) (seen values : List α) : Prop :=
  ∀ a ∈ values, ∀ b ∈ seen ++ values, key b = key a → b = a

theorem consistent_cons : Consistent key seen (value :: values) ↔
    (∀ other ∈ seen, key other = key value → other = value) ∧
      Consistent key (seen ++ [value]) values := by
  simp only [Consistent, List.append_assoc, List.singleton_append]
  constructor
  · intro agree
    refine ⟨fun other member => ?_, fun a member => agree a (List.mem_cons_of_mem _ member)⟩
    exact agree value List.mem_cons_self other (List.mem_append_left _ member)
  · rintro ⟨first, rest⟩ a memberA b memberB same
    rcases List.mem_cons.mp memberA with rfl | later
    · rcases List.mem_append.mp memberB with old | new
      · exact first b old same
      · rcases List.mem_cons.mp new with rfl | after
        · rfl
        · exact (rest b after a (by simp) same.symm).symm
    · exact rest a later b memberB same

variable [DecidableEq α] [DecidableEq κ]

/-- `insert or ignore`, and a select of the row that equals the value. -/
def intern (key : α → κ) (t : Table α) (value : α) : Table α × Option Nat :=
  let t := if (t.select fun row => key row = key value).isEmpty then t.insert value else t
  (t, (t.select fun row => row = value).head?.map Prod.fst)

/-- A value whose key a row has is not inserted. -/
theorem intern_taken (found : t.get? i = some other) (same : key other = key value) :
    t.intern key value = (t, (t.select fun row => row = value).head?.map Prod.fst) := by
  have taken : ¬ (t.select fun row => key row = key value).isEmpty = true := by
    intro free
    exact of_decide_eq_false (select_isEmpty.mp free i other found) same
  simp only [Table.intern, if_neg taken]

/-- A value that has been seen keeps the row it has. -/
theorem Interned.intern_known (interned : Interned key t seen) (found : t.get? i = some value) :
    t.intern key value = (t, some i) := by
  have first := head?_select (p := fun row => row = value) found (decide_eq_true rfl)
    (fun j b held same => by
      obtain rfl := of_decide_eq_true same
      exact interned.keyed j i _ _ held found rfl)
  rw [intern_taken found rfl, first, Option.map_some]

/-- A value with a key of its own gets the next row. -/
theorem intern_new (apart : ∀ j b, t.get? j = some b → key b ≠ key value) :
    t.intern key value = (t.insert value, some (t.seq + 1)) := by
  have free : (t.select fun row => key row = key value).isEmpty = true :=
    select_isEmpty.mpr fun j b held => decide_eq_false (apart j b held)
  have first := head?_select (p := fun row => row = value) (get?_insert_self t value)
    (decide_eq_true rfl) (fun j b found same => by
      obtain rfl := of_decide_eq_true same
      rw [get?_insert] at found
      split at found
      · assumption
      · exact absurd rfl (apart j b found))
  simp only [Table.intern, free, if_true, first, Option.map_some]

/-- Whatever is interned, the table keeps one row for each key. -/
theorem Interned.intern_cases (interned : Interned key t seen) (value : α) :
    (t.intern key value).1 = t ∨
      (t.intern key value).1 = t.insert value ∧ Interned key (t.insert value) (seen ++ [value]) := by
  by_cases taken : ∃ i other, t.get? i = some other ∧ key other = key value
  · obtain ⟨i, other, found, same⟩ := taken
    rw [intern_taken found same]
    exact .inl rfl
  · have apart : ∀ j b, t.get? j = some b → key b ≠ key value :=
      fun j b held same => taken ⟨j, b, held, same⟩
    rw [intern_new apart]
    exact .inr ⟨rfl, interned.insert apart⟩

/-- The id that is answered is that of the value's row. -/
theorem intern_found {id : Nat} (answered : t.intern key value = (u, some id)) :
    u.get? id = some value := by
  obtain ⟨same, found⟩ := Prod.mk.inj answered
  obtain ⟨row, first, rfl⟩ := Option.map_eq_some_iff.mp found
  rw [← same]
  have held := get?_of_head?_select first
  have meets := (mem_select.mp (List.mem_of_mem_head? (Option.mem_def.mpr first))).2
  rwa [of_decide_eq_true meets] at held

/-- Interning a value that agrees with those seen wherever they share its key. -/
theorem Interned.intern (interned : Interned key t seen)
    (consistent : ∀ other ∈ seen, key other = key value → other = value) :
    ∃ u id, t.intern key value = (u, some id) ∧ u.get? id = some value ∧ Grown t u ∧
      Interned key u (seen ++ [value]) := by
  by_cases member : value ∈ seen
  · obtain ⟨id, found⟩ := interned.known value member
    exact ⟨t, id, interned.intern_known found, found, .refl t, interned.again member⟩
  · have apart : ∀ j b, t.get? j = some b → key b ≠ key value := by
      intro j b held same
      have seenB := interned.rows j b held
      exact member (consistent b seenB same ▸ seenB)
    exact ⟨t.insert value, t.seq + 1, intern_new apart, get?_insert_self t value,
      (Grown.refl t).insert value, interned.insert apart⟩

/-- A value that shares its key with another one seen is not found. -/
theorem Interned.intern_clash (interned : Interned key t seen) (other : α) (member : other ∈ seen)
    (same : key other = key value) (differs : other ≠ value) : t.intern key value = (t, none) := by
  obtain ⟨id, found⟩ := interned.known other member
  have absent : t.select (fun row => row = value) = [] := by
    refine List.isEmpty_iff.mp (select_isEmpty.mpr fun j b held => decide_eq_false ?_)
    rintro rfl
    have here := interned.keyed j id b other held found same.symm
    subst here
    exact differs (Option.some.inj (found.symm.trans held))
  rw [intern_taken found same, absent, List.head?_nil, Option.map_none]

/-- A value is found exactly when it agrees with those seen wherever they share its key. -/
theorem Interned.found_iff (interned : Interned key t seen) : (t.intern key value).2.isSome ↔
    ∀ other ∈ seen, key other = key value → other = value := by
  constructor
  · intro found other member same
    by_contra differs
    rw [interned.intern_clash other member same differs] at found
    contradiction
  · intro agrees
    obtain ⟨u, id, answered, _⟩ := interned.intern agrees
    rw [answered]
    rfl

end Table
