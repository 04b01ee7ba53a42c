import Mathlib.Data.List.Forall2
import Mathlib.Data.List.Pairwise
import Mathlib.Data.List.Perm.Subperm

/-! Tables keyed by an AUTOINCREMENT row id. `seq` is the high-water mark of the
ids ever given out; rows stand in id order. Both facts are fields, so no table
with a repeated or reused id can be built. -/

structure Table (α : Type) where
  rows : List (Nat × α)
  seq : Nat
  ordered : (rows.map Prod.fst).Pairwise (· < ·)
  bounded : ∀ id ∈ rows.map Prod.fst, id ≤ seq

namespace Table
variable {α : Type} {id : Nat}

def empty : Table α := ⟨[], 0, .nil, by simp⟩

def get? (t : Table α) (id : Nat) : Option α :=
  (t.rows.find? fun row => row.1 = id).map Prod.snd

/-- `insert into`: the new row's id is `seq + 1`, which is also what
`last_insert_rowid` then answers. -/
def insert (t : Table α) (value : α) : Table α where
  rows := t.rows ++ [(t.seq + 1, value)]
  seq := t.seq + 1
  ordered := by
    simp only [List.map_append, List.map_cons, List.map_nil, List.pairwise_append]
    refine ⟨t.ordered, List.pairwise_singleton _ _, ?_⟩
    intro a ha b hb
    have := t.bounded a ha
    simp only [List.mem_singleton] at hb
    omega
  bounded := by
    intro id member
    simp only [List.map_append, List.map_cons, List.map_nil, List.mem_append,
      List.mem_singleton] at member
    rcases member with old | rfl
    · exact Nat.le_succ_of_le (t.bounded id old)
    · exact Nat.le_refl _

theorem map_fst_update (rows : List (Nat × α)) (f : Nat → α → α) :
    (rows.map fun row => (row.1, f row.1 row.2)).map Prod.fst = rows.map Prod.fst := by
  simp [Function.comp_def]

/-- `update .. where id = ?`. -/
def update (t : Table α) (id : Nat) (f : α → α) : Table α where
  rows := t.rows.map fun row => (row.1, if row.1 = id then f row.2 else row.2)
  seq := t.seq
  ordered := by rw [map_fst_update t.rows fun i a => if i = id then f a else a]; exact t.ordered
  bounded := by rw [map_fst_update t.rows fun i a => if i = id then f a else a]; exact t.bounded

/-- `select .. where`, in id order. -/
def select (t : Table α) (p : α → Bool) : List (Nat × α) := t.rows.filter fun row => p row.2

@[simp] theorem seq_insert (t : Table α) (value : α) : (t.insert value).seq = t.seq + 1 := rfl
@[simp] theorem seq_update (t : Table α) (id : Nat) (f : α → α) : (t.update id f).seq = t.seq := rfl
@[simp] theorem get?_empty (id : Nat) : (empty : Table α).get? id = none := rfl

theorem nodup_ids (t : Table α) : (t.rows.map Prod.fst).Nodup :=
  t.ordered.imp Nat.ne_of_lt

theorem get?_eq_some {t : Table α} {value : α} :
    t.get? id = some value ↔ (id, value) ∈ t.rows := by
  have unique := t.nodup_ids
  unfold get?
  generalize t.rows = rows at unique
  induction rows with
  | nil => simp
  | cons row rest ih =>
    obtain ⟨i, a⟩ := row
    simp only [List.map_cons, List.nodup_cons] at unique
    by_cases same : i = id
    · subst same
      have absent : (i, value) ∉ rest := fun member =>
        unique.1 (List.mem_map.mpr ⟨_, member, rfl⟩)
      simp [absent, eq_comm]
    · simpa [List.find?_cons, same, Ne.symm same] using ih unique.2

theorem get?_eq_none {t : Table α} :
    t.get? id = none ↔ id ∉ t.rows.map Prod.fst := by
  simp only [get?, Option.map_eq_none_iff, List.find?_eq_none, List.mem_map, decide_eq_true_eq]
  exact ⟨fun h ⟨row, member, same⟩ => h row member same, fun h row member same =>
    h ⟨row, member, same⟩⟩

theorem le_seq {t : Table α} (found : t.get? id = some value) : id ≤ t.seq :=
  t.bounded id (List.mem_map.mpr ⟨_, get?_eq_some.mp found, rfl⟩)

theorem get?_insert (t : Table α) (value : α) (id : Nat) :
    (t.insert value).get? id = if id = t.seq + 1 then some value else t.get? id := by
  have fresh : t.get? (t.seq + 1) = none := by
    apply get?_eq_none.mpr
    intro member
    have := t.bounded _ member
    omega
  by_cases same : id = t.seq + 1
  · subst same
    have missing : (t.rows.find? fun row => row.1 = t.seq + 1) = none := by
      simpa only [get?, Option.map_eq_none_iff] using fresh
    simp [get?, insert, List.find?_append, missing]
  · simp [get?, insert, List.find?_append, same, Ne.symm same]

theorem get?_insert_self (t : Table α) (value : α) :
    (t.insert value).get? (t.seq + 1) = some value := by
  rw [get?_insert, if_pos rfl]

theorem insert_inj {t : Table α} (same : t.insert a = t.insert b) : a = b := by
  have rows := congrArg Table.rows same
  simpa [insert] using rows

theorem insert_ne (t : Table α) (value : α) : t.insert value ≠ t := by
  intro same
  have longer := congrArg Table.seq same
  simp at longer

theorem get?_insert_of_some {t : Table α} (found : t.get? id = some old) (value : α) :
    (t.insert value).get? id = some old := by
  have := le_seq found
  rw [get?_insert, if_neg (by omega), found]

theorem get?_update (t : Table α) (id : Nat) (f : α → α) (other : Nat) :
    (t.update id f).get? other = if other = id then (t.get? other).map f else t.get? other := by
  simp only [get?, update]
  generalize t.rows = rows
  induction rows with
  | nil => simp
  | cons row rest ih =>
    obtain ⟨i, a⟩ := row
    by_cases here : i = other
    · subst here
      by_cases same : i = id <;> simp [same]
    · simpa [List.find?_cons, here] using ih

@[simp] theorem update_id (t : Table α) (id : Nat) : (t.update id fun value => value) = t := by
  simp [update]

theorem get?_update_self (t : Table α) (id : Nat) (f : α → α) :
    (t.update id f).get? id = (t.get? id).map f := by
  rw [get?_update, if_pos rfl]

theorem get?_update_of_some {t : Table α} (found : t.get? id = some value) (f : α → α) :
    (t.update id f).get? id = some (f value) := by
  rw [get?_update_self, found, Option.map_some]

theorem get?_update_of_ne (t : Table α) (f : α → α) (other : id' ≠ id) :
    (t.update id f).get? id' = t.get? id' := by
  rw [get?_update, if_neg other]

theorem isSome_insert {t : Table α} (known : (t.get? id).isSome) (value : α) :
    ((t.insert value).get? id).isSome := by
  obtain ⟨old, found⟩ := Option.isSome_iff_exists.mp known
  rw [get?_insert_of_some found]
  rfl

theorem isSome_update (t : Table α) (id : Nat) (f : α → α) (other : Nat) :
    ((t.update id f).get? other).isSome = (t.get? other).isSome := by
  rw [get?_update]
  split <;> simp

theorem mem_select {t : Table α} {p : α → Bool} {row : Nat × α} :
    row ∈ t.select p ↔ t.get? row.1 = some row.2 ∧ p row.2 = true := by
  rw [get?_eq_some, select, List.mem_filter]

theorem nodup_ids_select (t : Table α) (p : α → Bool) : ((t.select p).map Prod.fst).Nodup :=
  t.nodup_ids.sublist (List.filter_sublist.map Prod.fst)

theorem select_insert (t : Table α) (value : α) (p : α → Bool) : (t.insert value).select p =
    t.select p ++ if p value then [(t.seq + 1, value)] else [] := by
  simp only [select, insert, List.filter_append, List.filter_cons, List.filter_nil]

theorem get?_of_head?_select {t : Table α} {p : α → Bool} {row : Nat × α}
    (first : (t.select p).head? = some row) : t.get? row.1 = some row.2 :=
  (mem_select.mp (List.mem_of_mem_head? (Option.mem_def.mpr first))).1

/-- A selection that only one row can meet answers that row. -/
theorem head?_select {t : Table α} {p : α → Bool} (found : t.get? id = some value)
    (meets : p value = true)
    (only : ∀ id' value', t.get? id' = some value' → p value' = true → id' = id) :
    (t.select p).head? = some (id, value) := by
  have member : (id, value) ∈ t.select p := mem_select.mpr ⟨found, meets⟩
  cases rows : t.select p with
  | nil => rw [rows] at member; contradiction
  | cons row rest =>
    obtain ⟨found', meets'⟩ := mem_select.mp (rows ▸ List.mem_cons_self : row ∈ t.select p)
    obtain ⟨id', value'⟩ := row
    cases only id' value' found' meets'
    cases Option.some.inj (found'.symm.trans found)
    rfl

/-- A selection that has lost a row and gained none. -/
theorem length_select_lt {t t' : Table α} {p : α → Bool} (found : t.get? id = some value)
    (meets : p value = true) (lost : ∀ value', t'.get? id = some value' → p value' = false)
    (older : ∀ other value', t'.get? other = some value' → p value' = true →
      ∃ value, t.get? other = some value ∧ p value = true) :
    (t'.select p).length < (t.select p).length := by
  have unique : (id :: (t'.select p).map Prod.fst).Nodup := by
    refine List.nodup_cons.mpr ⟨?_, nodup_ids_select t' p⟩
    intro member
    obtain ⟨⟨_, value'⟩, selected, rfl⟩ := List.mem_map.mp member
    obtain ⟨found', meets'⟩ := mem_select.mp selected
    rw [lost value' found'] at meets'
    contradiction
  have within : id :: (t'.select p).map Prod.fst ⊆ (t.select p).map Prod.fst := by
    have selected : (id, value) ∈ t.select p := mem_select.mpr ⟨found, meets⟩
    refine List.cons_subset.mpr ⟨List.mem_map_of_mem (f := Prod.fst) selected, ?_⟩
    intro other member
    obtain ⟨row, selected, rfl⟩ := List.mem_map.mp member
    obtain ⟨found', meets'⟩ := mem_select.mp selected
    obtain ⟨value, held, meets⟩ := older row.1 row.2 found' meets'
    have before : (row.1, value) ∈ t.select p := mem_select.mpr ⟨held, meets⟩
    exact List.mem_map.mpr ⟨_, before, rfl⟩
  have fewer := (List.subperm_of_subset unique within).length_le
  rw [List.length_cons, List.length_map, List.length_map] at fewer
  exact fewer

/-! `insert into .. on conflict .. do update`. -/

section Upsert
variable {conflicts q : α → Bool} {f : α → α} {new : α}

/-- The first row in conflict is updated; without one, a row is inserted. -/
def upsert (t : Table α) (conflicts : α → Bool) (f : α → α) (new : α) : Table α :=
  match (t.select conflicts).head? with
  | some (id, _) => t.update id f
  | none => t.insert new

def upsertFirst (conflicts : α → Bool) (f : α → α) (new : α) : List α → List α
  | [] => [new]
  | a :: rest => if conflicts a then f a :: rest else a :: upsertFirst conflicts f new rest

theorem map_update_absent {rows : List (Nat × α)} (absent : id ∉ rows.map Prod.fst) (f : α → α) :
    (rows.map fun row => (row.1, if row.1 = id then f row.2 else row.2)) = rows := by
  induction rows with
  | nil => rfl
  | cons row rest ih =>
    simp only [List.map_cons, List.mem_cons, not_or] at absent
    rw [List.map_cons, ih absent.2, if_neg (Ne.symm absent.1)]

/-- Updating the first row in conflict, seen through the rows that meet `q`. -/
theorem map_filter_update {rows : List (Nat × α)} (unique : (rows.map Prod.fst).Nodup)
    (stays : ∀ a, conflicts a = true → q a = true ∧ q (f a) = true)
    (first : (rows.filter fun row => conflicts row.2).head? = some (id, value)) :
    (((rows.map fun row => (row.1, if row.1 = id then f row.2 else row.2)).filter
        fun row => q row.2).map Prod.snd) =
      upsertFirst conflicts f new ((rows.filter fun row => q row.2).map Prod.snd) := by
  induction rows with
  | nil => cases first
  | cons row rest ih =>
    obtain ⟨i, a⟩ := row
    simp only [List.map_cons, List.nodup_cons] at unique
    by_cases hit : conflicts a = true
    · simp only [List.filter_cons, hit, if_true, List.head?_cons, Option.some.injEq, Prod.mk.injEq] at first
      obtain ⟨rfl, rfl⟩ := first
      obtain ⟨before, after⟩ := stays a hit
      simp only [List.map_cons, if_true, map_update_absent unique.1, List.filter_cons, before, after,
        upsertFirst, hit]
    · simp only [List.filter_cons, hit, Bool.false_eq_true, if_false] at first
      have member := List.mem_of_mem_filter (List.mem_of_head? first)
      have other : i ≠ id := fun same => unique.1 (same ▸ List.mem_map_of_mem (f := Prod.fst) member)
      have later := ih unique.2 first
      by_cases seen : q a = true
      · simp only [List.map_cons, other, if_false, List.filter_cons, seen, if_true, later, upsertFirst, hit]
        simp
      · simp only [List.map_cons, other, if_false, List.filter_cons, seen, Bool.false_eq_true, later]

theorem upsertFirst_none {values : List α} (none : ∀ a ∈ values, conflicts a = false) :
    upsertFirst conflicts f new values = values ++ [new] := by
  induction values with
  | nil => rfl
  | cons a rest ih =>
    rw [upsertFirst, if_neg (by simp [none a List.mem_cons_self]),
      ih fun b member => none b (List.mem_cons_of_mem a member), List.cons_append]

/-- An upsert among the rows that meet `q` is an upsert of their values. -/
theorem map_select_upsert (t : Table α) (stays : ∀ a, conflicts a = true → q a = true ∧ q (f a) = true)
    (kept : q new = true) : ((t.upsert conflicts f new).select q).map Prod.snd =
      upsertFirst conflicts f new ((t.select q).map Prod.snd) := by
  unfold upsert
  split
  · rename_i id value first
    exact map_filter_update t.nodup_ids stays first
  · rename_i missing
    have none : ∀ a ∈ (t.select q).map Prod.snd, conflicts a = false := by
      intro a member
      obtain ⟨row, listed, rfl⟩ := List.mem_map.mp member
      have absent := List.filter_eq_nil_iff.mp (List.head?_eq_none_iff.mp missing) row
        (List.mem_of_mem_filter listed)
      simpa using absent
    rw [upsertFirst_none none]
    simp [select, insert, List.filter_append, kept]

/-- An upsert away from the rows that meet `q` leaves them alone. -/
theorem select_upsert_apart (t : Table α)
    (apart : ∀ a, conflicts a = true → q a = false ∧ q (f a) = false) (other : q new = false) :
    (t.upsert conflicts f new).select q = t.select q := by
  unfold upsert
  split
  · rename_i id value first
    obtain ⟨found, hit⟩ := mem_select.mp (List.mem_of_head? first)
    have away : ∀ row ∈ t.rows, row.1 = id → q row.2 = false ∧ q (f row.2) = false := by
      rintro ⟨i, a⟩ member rfl
      have same : value = a := Option.some.inj (found.symm.trans (get?_eq_some.mpr member))
      exact apart a (same ▸ hit)
    simp only [select, update]
    generalize t.rows = rows at away
    induction rows with
    | nil => rfl
    | cons row rest ih =>
      have later := ih fun row member => away row (List.mem_cons_of_mem _ member)
      by_cases here : row.1 = id
      · obtain ⟨before, after⟩ := away row List.mem_cons_self here
        simp [here, before, after, later]
      · simp only [List.map_cons, here, if_false, List.filter_cons, later]
  · simp [select, insert, List.filter_append, other]

end Upsert

/-! Two tables with the same ids, row by row related. -/

section Pairs
variable {R R' : Nat → α → α → Prop} {t t' : Table α}

structure Pairs (R : Nat → α → α → Prop) (t t' : Table α) : Prop where
  seq : t.seq = t'.seq
  rows : List.Forall₂ (fun a b => a.1 = b.1 ∧ R a.1 a.2 b.2) t.rows t'.rows

theorem Pairs.refl (same : ∀ id value, R id value value) (t : Table α) : Pairs R t t :=
  ⟨rfl, List.forall₂_same.mpr fun row _ => ⟨rfl, same row.1 row.2⟩⟩

theorem Pairs.symm (pairs : Pairs R t t') (flip : ∀ id a b, R id a b → R' id b a) : Pairs R' t' t := by
  refine ⟨pairs.seq.symm, pairs.rows.flip.imp ?_⟩
  rintro ⟨i, b⟩ ⟨_, a⟩ ⟨rfl, related⟩
  exact ⟨rfl, flip _ a b related⟩

theorem Pairs.get? (pairs : Pairs R t t') (found : t.get? id = some value) :
    ∃ value', t'.get? id = some value' ∧ R id value value' := by
  have present := get?_eq_some.mp found
  obtain ⟨row', member, same, related⟩ : ∃ row' ∈ t'.rows, id = row'.1 ∧ R id value row'.2 := by
    have rows := pairs.rows
    generalize t.rows = xs at rows present
    generalize t'.rows = ys at rows
    induction rows with
    | nil => cases present
    | cons first _ ih =>
      rcases List.mem_cons.mp present with rfl | later
      · exact ⟨_, List.mem_cons_self, first⟩
      · obtain ⟨row', member, rest⟩ := ih later
        exact ⟨row', List.mem_cons_of_mem _ member, rest⟩
  subst same
  exact ⟨row'.2, get?_eq_some.mpr member, related⟩

theorem Pairs.map_get? {f g : α → β} (pairs : Pairs R t t') (reads : ∀ a b, R id a b → f a = g b) :
    (t.get? id).map f = (t'.get? id).map g := by
  cases found : t.get? id with
  | some value =>
    obtain ⟨value', found', related⟩ := pairs.get? found
    simp only [found', Option.map_some, reads value value' related]
  | none =>
    cases found' : t'.get? id with
    | none => rfl
    | some value' =>
      have back : Pairs (fun id b a => R id a b) t' t := pairs.symm fun _ _ _ related => related
      obtain ⟨value, held, _⟩ := back.get? found'
      rw [found] at held
      contradiction

/-- The related rows are rows of the tables. -/
theorem Pairs.found (pairs : Pairs R t t') :
    Pairs (fun id a b => t.get? id = some a ∧ R id a b) t t' := by
  refine ⟨pairs.seq, ?_⟩
  have within : ∀ row ∈ t.rows, t.get? row.1 = some row.2 := fun row => get?_eq_some.mpr
  have rows := pairs.rows
  generalize t.rows = xs at rows within
  generalize t'.rows = ys at rows
  induction rows with
  | nil => exact .nil
  | @cons row row' xs ys first _ ih =>
    refine .cons ⟨first.1, within row List.mem_cons_self, first.2⟩ (ih ?_)
    exact fun other member => within other (List.mem_cons_of_mem row member)

theorem Pairs.insert (pairs : Pairs R t t') (related : R (t.seq + 1) a b) :
    Pairs R (t.insert a) (t'.insert b) := by
  refine ⟨congrArg (· + 1) pairs.seq, ?_⟩
  refine List.rel_append pairs.rows ?_
  exact .cons ⟨congrArg (· + 1) pairs.seq, related⟩ .nil

/-- Both rows of one id are updated, each in its own way; the relation may change. -/
theorem Pairs.update (pairs : Pairs R t t') {f g : α → α}
    (here : ∀ a b, R id a b → R' id (f a) (g b))
    (elsewhere : ∀ i a b, i ≠ id → R i a b → R' i a b) :
    Pairs R' (t.update id f) (t'.update id g) := by
  refine ⟨pairs.seq, ?_⟩
  simp only [Table.update, List.forall₂_map_left_iff, List.forall₂_map_right_iff]
  refine pairs.rows.imp ?_
  rintro ⟨i, a⟩ ⟨_, b⟩ ⟨rfl, related⟩
  refine ⟨rfl, ?_⟩
  by_cases same : i = id
  · subst same
    simpa using here a b related
  · simpa [same] using elsewhere i a b same related

theorem Pairs.mono (pairs : Pairs R t t') (weaker : ∀ id a b, R id a b → R' id a b) :
    Pairs R' t t' :=
  ⟨pairs.seq, pairs.rows.imp fun _ _ related => ⟨related.1, weaker _ _ _ related.2⟩⟩

/-- What is read from the rows that are kept is the same in both. -/
theorem Pairs.map_filter {keep : Nat × α → Bool} {f : Nat × α → β} (pairs : Pairs R t t')
    (meets : ∀ id a b, R id a b → keep (id, a) = keep (id, b))
    (reads : ∀ id a b, R id a b → keep (id, a) = true → f (id, a) = f (id, b)) :
    (t.rows.filter keep).map f = (t'.rows.filter keep).map f := by
  have rows := pairs.rows
  generalize t.rows = xs at rows
  generalize t'.rows = ys at rows
  induction rows with
  | nil => rfl
  | @cons row row' xs ys first _ ih =>
    obtain ⟨i, a⟩ := row
    obtain ⟨_, b⟩ := row'
    obtain ⟨rfl, related⟩ := first
    have same := meets i a b related
    by_cases taken : keep (i, a) = true
    · simp only [List.filter_cons, taken, ← same, if_true, List.map_cons, ih, reads i a b related taken]
    · simp only [List.filter_cons, taken, ← same, Bool.false_eq_true, if_false, ih]

theorem Pairs.map_select {p : α → Bool} {f : Nat × α → β} (pairs : Pairs R t t')
    (meets : ∀ id a b, R id a b → p a = p b)
    (reads : ∀ id a b, R id a b → p a = true → f (id, a) = f (id, b)) :
    (t.select p).map f = (t'.select p).map f :=
  pairs.map_filter meets reads

end Pairs

/-! References: a column that holds row ids of another table. -/

section References
variable {β : Type} {t : Table α} {u u' : Table β} {key : α → Nat}

/-- Every id in the column `key` is the id of a row of `u`. -/
def References (t : Table α) (key : α → Nat) (u : Table β) : Prop :=
  ∀ id value, t.get? id = some value → (u.get? (key value)).isSome

/-- Every row id of `u` is one of `u'`. -/
def Extends (u u' : Table β) : Prop := ∀ id, (u.get? id).isSome → (u'.get? id).isSome

theorem Extends.refl (u : Table β) : Extends u u := fun _ known => known

theorem Extends.trans {u'' : Table β} (first : Extends u u') (second : Extends u' u'') :
    Extends u u'' :=
  fun id known => second id (first id known)

theorem extends_insert (u : Table β) (value : β) : Extends u (u.insert value) :=
  fun _ known => isSome_insert known value

/-- Every row of `u` is one of `u'`. -/
def Within (u u' : Table β) : Prop := ∀ id value, u.get? id = some value → u'.get? id = some value

theorem Within.refl (u : Table β) : Within u u := fun _ _ found => found

theorem Within.trans {u'' : Table β} (first : Within u u') (second : Within u' u'') : Within u u'' :=
  fun id value found => second id value (first id value found)

theorem within_insert (u : Table β) (value : β) : Within u (u.insert value) :=
  fun _ _ found => get?_insert_of_some found value

theorem References.empty (key : α → Nat) (u : Table β) : (empty : Table α).References key u := by
  intro id value found
  simp at found

theorem References.insert (refs : t.References key u) {value : α}
    (known : (u.get? (key value)).isSome) : (t.insert value).References key u := by
  intro id value' found
  rw [get?_insert] at found
  split at found
  · cases found
    exact known
  · exact refs id value' found

theorem References.update (refs : t.References key u) {f : α → α}
    (same : ∀ value, key (f value) = key value) : (t.update id f).References key u := by
  intro id' value' found
  rw [get?_update] at found
  split at found
  · obtain ⟨value, held, rfl⟩ := Option.map_eq_some_iff.mp found
    rw [same]
    exact refs id' value held
  · exact refs id' value' found

theorem References.mono (refs : t.References key u) (more : Extends u u') :
    t.References key u' :=
  fun id value found => more _ (refs id value found)

theorem References.upsert (refs : t.References key u) {conflicts : α → Bool} {f : α → α} {value : α}
    (same : ∀ value, key (f value) = key value) (known : (u.get? (key value)).isSome) :
    (t.upsert conflicts f value).References key u := by
  unfold Table.upsert
  split
  · exact refs.update same
  · exact refs.insert known

theorem extends_update (u : Table β) (id : Nat) (f : β → β) : Extends u (u.update id f) := by
  intro other known
  rw [isSome_update]
  exact known

variable {column : α → Option Nat}

/-- The same for a column that may be null. -/
def MayReference (t : Table α) (column : α → Option Nat) (u : Table β) : Prop :=
  ∀ id value named, t.get? id = some value → column value = some named → (u.get? named).isSome

theorem MayReference.empty (column : α → Option Nat) (u : Table β) :
    (empty : Table α).MayReference column u := by
  intro id value named found
  simp at found

theorem MayReference.insert (refs : t.MayReference column u) {value : α}
    (known : ∀ named, column value = some named → (u.get? named).isSome) :
    (t.insert value).MayReference column u := by
  intro id value' named found
  rw [get?_insert] at found
  split at found
  · cases found
    exact known named
  · exact refs id value' named found

theorem MayReference.update (refs : t.MayReference column u) {f : α → α}
    (keeps : ∀ value named, column (f value) = some named →
      column value = some named ∨ (u.get? named).isSome) : (t.update id f).MayReference column u := by
  intro id' value' named found names
  rw [get?_update] at found
  split at found
  · obtain ⟨value, held, rfl⟩ := Option.map_eq_some_iff.mp found
    exact (keeps value named names).elim (refs id' value named held) fun known => known
  · exact refs id' value' named found names

theorem MayReference.mono (refs : t.MayReference column u) (more : Extends u u') :
    t.MayReference column u' :=
  fun id value named found names => more _ (refs id value named found names)

end References

/-! Growth: what was inserted since an earlier state of the table. -/

def since (t₀ t : Table α) : List (Nat × α) := t.rows.drop t₀.rows.length

/-- Nothing that was in `t₀` has been changed or removed. -/
def Grown (t₀ t : Table α) : Prop := t.rows = t₀.rows ++ since t₀ t

theorem Grown.refl (t : Table α) : Grown t t := by simp [Grown, since]

theorem grown_iff_begins {t₀ t : Table α} : Grown t₀ t ↔ t₀.rows <+: t.rows := by
  constructor
  · intro grown
    exact ⟨since t₀ t, grown.symm⟩
  · intro begins
    exact (List.prefix_iff_eq_append.mp begins).symm

theorem Grown.trans {t₀ t u : Table α} (first : Grown t₀ t) (second : Grown t u) : Grown t₀ u :=
  grown_iff_begins.mpr ((grown_iff_begins.mp first).trans (grown_iff_begins.mp second))

theorem Grown.get? {t₀ t : Table α} (grown : Grown t₀ t) (found : t₀.get? id = some value) :
    t.get? id = some value :=
  get?_eq_some.mpr ((grown_iff_begins.mp grown).subset (get?_eq_some.mp found))

@[simp] theorem since_self (t : Table α) : since t t = [] := by simp [since]

theorem since_insert {t₀ t : Table α} (grown : Grown t₀ t) (value : α) :
    since t₀ (t.insert value) = since t₀ t ++ [(t.seq + 1, value)] := by
  have longer : t₀.rows.length ≤ t.rows.length := by rw [grown]; simp
  rw [since, insert, List.drop_append_of_le_length longer, since]

theorem Grown.insert {t₀ t : Table α} (grown : Grown t₀ t) (value : α) :
    Grown t₀ (t.insert value) := by
  rw [Grown, since_insert grown, ← List.append_assoc, ← grown]
  rfl

theorem Grown.mem {t₀ t : Table α} (grown : Grown t₀ t) {row : Nat × α} :
    row ∈ t.rows ↔ row ∈ t₀.rows ∨ row ∈ since t₀ t := by
  rw [grown, List.mem_append]

end Table
