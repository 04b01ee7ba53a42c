import Mathlib.Data.List.Basic

/-! A bounded channel with one receiver. What was accepted is what was received, then
what still waits, and no more waits than there is room for; both are fields. -/

structure Channel (α : Type) (capacity : Nat) where
  accepted : List α
  received : List α
  queue : List α
  inOrder : accepted = received ++ queue
  bounded : queue.length ≤ capacity

namespace Channel
variable {α : Type} {capacity : Nat} {c d : Channel α capacity} {a b : α}

def empty : Channel α capacity := ⟨[], [], [], rfl, Nat.zero_le _⟩

/-- Refused when nothing more can wait. -/
def trySend (c : Channel α capacity) (a : α) : Option (Channel α capacity) :=
  if room : c.queue.length < capacity then
    some {
      accepted := c.accepted ++ [a]
      received := c.received
      queue := c.queue ++ [a]
      inOrder := by rw [c.inOrder, List.append_assoc]
      bounded := by
        rw [List.length_append]
        exact room }
  else none

/-- The element that has waited longest. -/
def recv (c : Channel α capacity) : Option (α × Channel α capacity) :=
  match waiting : c.queue with
  | [] => none
  | a :: rest =>
    some (a, {
      accepted := c.accepted
      received := c.received ++ [a]
      queue := rest
      inOrder := by rw [c.inOrder, waiting, List.append_assoc, List.singleton_append]
      bounded := by
        have bounded := c.bounded
        rw [waiting, List.length_cons] at bounded
        exact Nat.le_of_succ_le bounded })

theorem trySend_isSome : (c.trySend a).isSome = true ↔ c.queue.length < capacity := by
  unfold trySend
  split <;> simp [*]

theorem trySend_some (sent : c.trySend a = some d) :
    d.accepted = c.accepted ++ [a] ∧ d.received = c.received ∧ d.queue = c.queue ++ [a] := by
  unfold trySend at sent
  split at sent
  · cases sent
    exact ⟨rfl, rfl, rfl⟩
  · contradiction

theorem recv_some (taken : c.recv = some (a, d)) :
    c.queue = a :: d.queue ∧ d.accepted = c.accepted ∧ d.received = c.received ++ [a] := by
  unfold recv at taken
  split at taken
  · contradiction
  · cases taken
    exact ⟨‹_›, rfl, rfl⟩

theorem mem_accepted_of_received (member : a ∈ c.received) : a ∈ c.accepted := by
  rw [c.inOrder]
  exact List.mem_append_left _ member

theorem mem_accepted_of_queue (member : a ∈ c.queue) : a ∈ c.accepted := by
  rw [c.inOrder]
  exact List.mem_append_right _ member

/-- With nothing waiting, what is sent is what is received next. -/
theorem recv_trySend (idle : c.queue = []) (room : 0 < capacity) : ∃ d e, c.trySend a = some d ∧
    d.recv = some (a, e) ∧ e.queue = [] := by
  have sent : (c.trySend a).isSome = true := by
    rw [trySend_isSome, idle]
    exact room
  obtain ⟨d, sent⟩ := Option.isSome_iff_exists.mp sent
  obtain ⟨_, _, queue⟩ := trySend_some sent
  rw [idle, List.nil_append] at queue
  cases taken : d.recv with
  | none =>
    unfold recv at taken
    split at taken
    · simp_all
    · contradiction
  | some next =>
    obtain ⟨b, e⟩ := next
    obtain ⟨waiting, _, _⟩ := recv_some taken
    rw [queue] at waiting
    obtain ⟨rfl, none⟩ := List.cons.inj waiting
    exact ⟨d, e, sent, taken, none.symm⟩

end Channel
