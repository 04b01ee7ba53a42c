import Mathlib.Data.List.Basic
import Mathlib.Order.Defs.Unbundled

/-! Labelled machines. A label carries every choice the environment makes, so a
step is a partial function and a run is the list of labels taken. Invariants and
guards are stated once here for any machine. -/
namespace Transition

structure Machine (S L : Type) where
  step : S → L → Option S

namespace Machine
variable {S L : Type} {m : Machine S L}

def run (m : Machine S L) : S → List L → Option S
  | s, [] => some s
  | s, l :: ls => (m.step s l).bind fun t => m.run t ls

/-- Every step of the run meets `guard` in the state it is taken from. -/
def Guarded (m : Machine S L) (guard : S → L → Prop) : S → List L → Prop
  | _, [] => True
  | s, l :: ls => guard s l ∧ ∀ t, m.step s l = some t → m.Guarded guard t ls

/-- Guards that can be evaluated can be evaluated along a run. -/
instance decidableGuarded {guard : S → L → Prop} [∀ s l, Decidable (guard s l)] :
    (s : S) → (ls : List L) → Decidable (m.Guarded guard s ls)
  | _, [] => .isTrue trivial
  | s, l :: ls =>
    match step : m.step s l with
    | none => decidable_of_iff (guard s l) (by simp [Guarded, step])
    | some t =>
      have : Decidable (m.Guarded guard t ls) := decidableGuarded t ls
      decidable_of_iff (guard s l ∧ m.Guarded guard t ls) (by simp [Guarded, step])

theorem run_cons : m.run s (l :: ls) = some u ↔
    ∃ t, m.step s l = some t ∧ m.run t ls = some u := by
  simp only [run, Option.bind_eq_some_iff]

theorem guarded_cons {guard : S → L → Prop} {ls : List L} (step : m.step s l = some t) :
    m.Guarded guard s (l :: ls) ↔ guard s l ∧ m.Guarded guard t ls := by
  simp only [Guarded, step, Option.some.injEq, forall_eq']

theorem run_append (ls ks : List L) (s : S) :
    m.run s (ls ++ ks) = (m.run s ls).bind fun t => m.run t ks := by
  induction ls generalizing s with
  | nil => rfl
  | cons l ls ih =>
    simp only [List.cons_append, run]
    cases m.step s l with
    | none => rfl
    | some t => exact ih t

theorem guarded_append {guard : S → L → Prop} {ls ks : List L} {s : S} :
    m.Guarded guard s (ls ++ ks) ↔
      m.Guarded guard s ls ∧ ∀ t, m.run s ls = some t → m.Guarded guard t ks := by
  induction ls generalizing s with
  | nil => simp [Guarded, run]
  | cons l ls ih =>
    simp only [List.cons_append, Guarded, ih, run_cons]
    constructor
    · rintro ⟨first, rest⟩
      refine ⟨⟨first, fun t step => (rest t step).1⟩, ?_⟩
      rintro u ⟨t, step, path⟩
      exact (rest t step).2 u path
    · rintro ⟨⟨first, rest⟩, last⟩
      exact ⟨first, fun t step => ⟨rest t step, fun u path => last u ⟨t, step, path⟩⟩⟩

/-- A guard that asks nothing of these labels. -/
theorem guarded_of_forall {guard : S → L → Prop} {ls : List L} {s : S}
    (free : ∀ l ∈ ls, ∀ s, guard s l) : m.Guarded guard s ls := by
  induction ls generalizing s with
  | nil => trivial
  | cons l ls ih =>
    refine ⟨free l List.mem_cons_self s, fun t _ => ih ?_⟩
    exact fun l' member => free l' (List.mem_cons_of_mem l member)

/-- A guard that the invariant implies, on labels that keep the invariant. -/
theorem guarded_of_invariant {guard : S → L → Prop} {P : S → Prop} {ls : List L} {s : S}
    (keeps : ∀ s l t, l ∈ ls → P s → m.step s l = some t → P t)
    (meets : ∀ s l, l ∈ ls → P s → guard s l) (initial : P s) : m.Guarded guard s ls := by
  induction ls generalizing s with
  | nil => trivial
  | cons l ls ih =>
    refine ⟨meets s l List.mem_cons_self initial, fun t step => ?_⟩
    refine ih ?_ ?_ (keeps s l t List.mem_cons_self initial step)
    · exact fun s k t member => keeps s k t (List.mem_cons_of_mem l member)
    · exact fun s k member => meets s k (List.mem_cons_of_mem l member)

/-- What every guarded step keeps, every guarded run keeps. -/
theorem guarded_invariant {guard : S → L → Prop} {P : S → Prop}
    (keeps : ∀ s l t, P s → guard s l → m.step s l = some t → P t)
    (initial : P s) (guarded : m.Guarded guard s ls) (path : m.run s ls = some t) : P t := by
  induction ls generalizing s with
  | nil => exact Option.some.inj path ▸ initial
  | cons l ls ih =>
    obtain ⟨u, step, rest⟩ := run_cons.mp path
    exact ih (keeps s l u initial guarded.1 step) (guarded.2 u step) rest

theorem invariant {P : S → Prop} (keeps : ∀ s l t, P s → m.step s l = some t → P t)
    (initial : P s) (path : m.run s ls = some t) : P t := by
  induction ls generalizing s with
  | nil => exact Option.some.inj path ▸ initial
  | cons l ls ih =>
    obtain ⟨u, step, rest⟩ := run_cons.mp path
    exact ih (keeps s l u initial step) rest

/-- An invariant of the state and of the labels taken so far. -/
theorem traced {P : List L → S → Prop}
    (keeps : ∀ seen s l t, P seen s → m.step s l = some t → P (seen ++ [l]) t)
    (initial : P seen s) (path : m.run s ls = some t) : P (seen ++ ls) t := by
  induction ls generalizing s seen with
  | nil =>
    cases path
    rwa [List.append_nil]
  | cons l ls ih =>
    obtain ⟨u, step, rest⟩ := run_cons.mp path
    have later := ih (keeps seen s l u initial step) rest
    rwa [List.append_assoc, List.singleton_append] at later

/-- The two ends of every step of the run are related. -/
def Each (m : Machine S L) (R : S → S → Prop) : S → List L → Prop
  | _, [] => True
  | s, l :: ls => ∀ t, m.step s l = some t → R s t ∧ m.Each R t ls

theorem each_append {R : S → S → Prop} {ls ks : List L} {s : S} (each : m.Each R s (ls ++ ks))
    (path : m.run s ls = some t) : m.Each R t ks := by
  induction ls generalizing s with
  | nil => exact Option.some.inj path ▸ each
  | cons l ls ih =>
    obtain ⟨u, step, rest⟩ := run_cons.mp path
    exact ih (each u step).2 rest

/-- What a guarded step from a state with the invariant does, each step of a
guarded run does. -/
theorem guarded_each {guard : S → L → Prop} {P : S → Prop} {R : S → S → Prop}
    (keeps : ∀ s l t, P s → guard s l → m.step s l = some t → P t)
    (relates : ∀ s l t, P s → guard s l → m.step s l = some t → R s t)
    (initial : P s) (guarded : m.Guarded guard s ls) : m.Each R s ls := by
  induction ls generalizing s with
  | nil => trivial
  | cons l ls ih =>
    intro t step
    exact ⟨relates s l t initial guarded.1 step,
      ih (keeps s l t initial guarded.1 step) (guarded.2 t step)⟩

/-- `P` holds in every state the run goes through, both ends included. -/
def Throughout (m : Machine S L) (P : S → Prop) : S → List L → Prop
  | s, [] => P s
  | s, l :: ls => P s ∧ ∀ t, m.step s l = some t → m.Throughout P t ls

theorem Throughout.here {P : S → Prop} (holds : m.Throughout P s ls) : P s := by
  cases ls with
  | nil => exact holds
  | cons l ls => exact holds.1

theorem Throughout.ends {P : S → Prop} (holds : m.Throughout P s ls) (path : m.run s ls = some t) :
    P t := by
  induction ls generalizing s with
  | nil => exact Option.some.inj path ▸ holds
  | cons l ls ih =>
    obtain ⟨u, step, rest⟩ := run_cons.mp path
    exact ih (holds.2 u step) rest

/-- Among runs with a given guard: a further guard that keeps the invariant, and whose
violations show at once, is met all along a run exactly when every state of the run is
as the invariant promises. -/
theorem guarded_iff_throughout {given guard : S → L → Prop} {I P : S → Prop} {ls : List L} {s : S}
    (keeps : ∀ s l t, I s → given s l → guard s l → m.step s l = some t → I t)
    (promises : ∀ s, I s → P s)
    (shows : ∀ s l, I s → given s l → ¬ guard s l → ∃ t, m.step s l = some t ∧ ¬ P t)
    (initial : I s) (assumed : m.Guarded given s ls) :
    m.Guarded guard s ls ↔ m.Throughout P s ls := by
  induction ls generalizing s with
  | nil => exact ⟨fun _ => promises s initial, fun _ => trivial⟩
  | cons l ls ih =>
    constructor
    · rintro ⟨first, rest⟩
      refine ⟨promises s initial, fun t step => ?_⟩
      exact (ih (keeps s l t initial assumed.1 first step) (assumed.2 t step)).mp (rest t step)
    · rintro ⟨_, rest⟩
      have first : guard s l := by
        by_contra broken
        obtain ⟨t, step, bad⟩ := shows s l initial assumed.1 broken
        exact bad (rest t step).here
      refine ⟨first, fun t step => ?_⟩
      exact (ih (keeps s l t initial assumed.1 first step) (assumed.2 t step)).mpr (rest t step)

/-- A guard that looks at labels only, for a machine that takes every label. -/
theorem guarded_labels {P : L → Prop} {ls : List L} {s : S}
    (total : ∀ s l, ∃ t, m.step s l = some t) :
    m.Guarded (fun _ l => P l) s ls ↔ ∀ l ∈ ls, P l := by
  induction ls generalizing s with
  | nil => simp [Guarded]
  | cons l ls ih =>
    obtain ⟨t, step⟩ := total s l
    rw [guarded_cons step, ih, List.forall_mem_cons]

/-- Steps of one party that the relation does not see, matched steps of all others:
a run ends in a state related to that of the run without the party's steps. -/
theorem run_purge {mine : L → Bool} {R : S → S → Prop} {ls : List L}
    (silent : ∀ s l t u, l ∈ ls → mine l = true → R s u → m.step s l = some t → R t u)
    (others : ∀ s l t u, l ∈ ls → mine l = false → R s u → m.step s l = some t →
      ∃ v, m.step u l = some v ∧ R t v)
    (related : R s u) (path : m.run s ls = some t) :
    ∃ v, m.run u (ls.filter fun l => !mine l) = some v ∧ R t v := by
  induction ls generalizing s u with
  | nil =>
    cases path
    exact ⟨u, rfl, related⟩
  | cons l ls ih =>
    obtain ⟨next, step, rest⟩ := run_cons.mp path
    have silent' : ∀ s k t u, k ∈ ls → mine k = true → R s u → m.step s k = some t → R t u :=
      fun s k t u member => silent s k t u (List.mem_cons_of_mem l member)
    have others' : ∀ s k t u, k ∈ ls → mine k = false → R s u → m.step s k = some t →
        ∃ v, m.step u k = some v ∧ R t v :=
      fun s k t u member => others s k t u (List.mem_cons_of_mem l member)
    cases own : mine l with
    | true =>
      rw [List.filter_cons_of_neg (by simp [own])]
      exact ih silent' others' (silent s l next u List.mem_cons_self own related step) rest
    | false =>
      obtain ⟨matching, stepped, related'⟩ := others s l next u List.mem_cons_self own related step
      obtain ⟨v, path', related''⟩ := ih silent' others' related' rest
      rw [List.filter_cons_of_pos (by simp [own])]
      exact ⟨v, run_cons.mpr ⟨matching, stepped, path'⟩, related''⟩

/-- Each step matched by steps of another machine: a run is matched by a run. -/
theorem run_refines {S' L' : Type} {m' : Machine S' L'} {project : L → List L'} {R : S → S' → Prop}
    {u : S'} (matched : ∀ s l t u, R s u → m.step s l = some t →
      ∃ v, m'.run u (project l) = some v ∧ R t v)
    (related : R s u) (path : m.run s ls = some t) :
    ∃ v, m'.run u (ls.flatMap project) = some v ∧ R t v := by
  induction ls generalizing s u with
  | nil =>
    cases path
    exact ⟨u, rfl, related⟩
  | cons l ls ih =>
    obtain ⟨next, step, rest⟩ := run_cons.mp path
    obtain ⟨v, first, related'⟩ := matched s l next u related step
    obtain ⟨w, later, related''⟩ := ih related' rest
    refine ⟨w, ?_, related''⟩
    rw [List.flatMap_cons, run_append, first, Option.bind_some, later]

section Reaches
variable {among : L → Prop}

/-- Some run with labels of this kind gets from one state to the other. -/
def Reaches (m : Machine S L) (among : L → Prop) (s t : S) : Prop :=
  ∃ ls, (∀ l ∈ ls, among l) ∧ m.run s ls = some t

theorem Reaches.refl (s : S) : m.Reaches among s s := ⟨[], by simp, rfl⟩

/-- What each of these steps keeps is kept wherever they lead. -/
theorem Reaches.keeps {P : S → Prop} (keeps : ∀ s l t, P s → among l → m.step s l = some t → P t)
    (initial : P s) (reaches : m.Reaches among s t) : P t := by
  obtain ⟨ls, kinds, path⟩ := reaches
  have guarded : m.Guarded (fun _ l => among l) s ls :=
    guarded_of_forall fun l member _ => kinds l member
  exact guarded_invariant keeps initial guarded path

theorem Reaches.trans (first : m.Reaches among s t) (later : m.Reaches among t u) :
    m.Reaches among s u := by
  obtain ⟨ls, kinds, path⟩ := first
  obtain ⟨ks, kinds', path'⟩ := later
  refine ⟨ls ++ ks, ?_, by rw [run_append, path, Option.bind_some, path']⟩
  intro l member
  exact (List.mem_append.mp member).elim (kinds l) (kinds' l)

theorem Reaches.mono {among' : L → Prop} (reaches : m.Reaches among s t)
    (wider : ∀ l, among l → among' l) : m.Reaches among' s t := by
  obtain ⟨ls, kinds, path⟩ := reaches
  exact ⟨ls, fun l member => wider l (kinds l member), path⟩

/-- Where a measure can always be brought down, it can be brought down to nothing. -/
theorem reaches_of_descent {P : S → Prop} {R : S → S → Prop} [Std.Refl R] [IsTrans S R]
    (measure : S → Nat)
    (descends : ∀ s, P s → measure s ≠ 0 →
      ∃ t, m.Reaches among s t ∧ P t ∧ R s t ∧ measure t < measure s)
    (initial : P s) : ∃ t, m.Reaches among s t ∧ P t ∧ R s t ∧ measure t = 0 := by
  generalize size : measure s = n
  induction n using Nat.strongRecOn generalizing s with
  | ind n ih =>
    by_cases zero : measure s = 0
    · exact ⟨s, .refl s, initial, Std.Refl.refl s, zero⟩
    · obtain ⟨t, first, holds, related, less⟩ := descends s initial zero
      obtain ⟨u, later, holds', related', done⟩ := ih (measure t) (size ▸ less) holds rfl
      exact ⟨u, first.trans later, holds', IsTrans.trans s t u related related', done⟩

end Reaches

/-- Labels that lower a measure, among labels that never raise it, are no more than the
measure at the start. -/
theorem count_le {counted : L → Bool} {measure : S → Nat} {P : S → Prop}
    (keeps : ∀ s l t, P s → m.step s l = some t → P t)
    (lowers : ∀ s l t, P s → m.step s l = some t →
      measure t + (if counted l = true then 1 else 0) ≤ measure s)
    (initial : P s) (path : m.run s ls = some t) : ls.countP counted + measure t ≤ measure s := by
  induction ls generalizing s with
  | nil =>
    cases path
    exact Nat.le_of_eq (Nat.zero_add (measure _))
  | cons l ls ih =>
    obtain ⟨u, step, rest⟩ := run_cons.mp path
    have first := lowers s l u initial step
    have after := ih (keeps s l u initial step) rest
    rw [List.countP_cons]
    omega

section Until
variable {l : L} {ended : S → Prop}

/-- One label over and over, up to the first state that has `ended`. -/
inductive Until (m : Machine S L) (l : L) (ended : S → Prop) : S → S → Prop where
  | here (done : ended s) : Until m l ended s s
  | step (more : ¬ ended s) (stepped : m.step s l = some t) (rest : Until m l ended t u) :
    Until m l ended s u

/-- Going on until the end is a run. -/
theorem Until.reaches {among : L → Prop} (goes : m.Until l ended s t) (kind : among l) :
    m.Reaches among s t := by
  induction goes with
  | here => exact .refl _
  | step _ stepped _ ih =>
    refine Reaches.trans ⟨[l], ?_, run_cons.mpr ⟨_, stepped, rfl⟩⟩ ih
    rintro _ member
    rwa [List.mem_singleton.mp member]

theorem Until.unique (first : m.Until l ended s t) (second : m.Until l ended s u) : t = u := by
  induction first with
  | here done =>
    cases second with
    | here => rfl
    | step more => exact absurd done more
  | step more stepped _ ih =>
    cases second with
    | here done => exact absurd done more
    | step _ stepped' rest' =>
      cases stepped.symm.trans stepped'
      exact ih rest'

end Until

section Events
variable {E : Type} {observe : S → L → List E}

/-- What is observed along the run, step by step. -/
def events (m : Machine S L) (observe : S → L → List E) : S → List L → List E
  | _, [] => []
  | s, l :: ls =>
    match m.step s l with
    | none => []
    | some t => observe s l ++ m.events observe t ls

/-- An invariant of the state and of what has been observed so far. -/
theorem guarded_events {guard : S → L → Prop} {P : S → List E → Prop}
    (keeps : ∀ s seen l t, P s seen → guard s l → m.step s l = some t → P t (seen ++ observe s l))
    (initial : P s seen) (guarded : m.Guarded guard s ls) (path : m.run s ls = some t) :
    P t (seen ++ m.events observe s ls) := by
  induction ls generalizing s seen with
  | nil =>
    cases path
    simpa only [events, List.append_nil] using initial
  | cons l ls ih =>
    obtain ⟨u, step, rest⟩ := run_cons.mp path
    have next := ih (keeps s seen l u initial guarded.1 step) (guarded.2 u step) rest
    simpa only [events, step, List.append_assoc] using next

end Events

section Clock
variable {τ : Type} [LE τ] {reading : L → Option τ}

/-- An invariant that speaks of the latest reading of a clock, which some of the steps
read and which never goes back. -/
theorem guarded_clocked {guard : S → L → Prop} {P : τ → S → Prop}
    (keeps : ∀ clock s l t, P clock s → guard s l → (∀ now, reading l = some now → clock ≤ now) →
      m.step s l = some t → P ((reading l).getD clock) t)
    (initial : P clock s) (guarded : m.Guarded guard s ls)
    (inOrder : (clock :: ls.filterMap reading).Pairwise (· ≤ ·)) (path : m.run s ls = some t) :
    ∃ latest, P latest t := by
  induction ls generalizing clock s with
  | nil =>
    cases path
    exact ⟨clock, initial⟩
  | cons l ls ih =>
    obtain ⟨u, step, rest⟩ := run_cons.mp path
    have next := keeps clock s l u initial guarded.1
    cases read : reading l with
    | none =>
      rw [read] at next
      rw [List.filterMap_cons_none read] at inOrder
      exact ih (next nofun step) (guarded.2 u step) inOrder rest
    | some now =>
      rw [read] at next
      rw [List.filterMap_cons_some read, List.pairwise_cons] at inOrder
      refine ih (next ?_ step) (guarded.2 u step) inOrder.2 rest
      rintro _ ⟨⟩
      exact inOrder.1 now List.mem_cons_self

end Clock
end Machine
end Transition
