import Mathlib.Data.List.Basic

/-! A stream on its way from a writer to a sink, moved by one forwarder that reads
a chunk and then passes it on. What was written is what was delivered, then the
chunk in hand, then what is unread; the invariant is a field. -/

structure Conduit (α : Type) where
  written : List α
  unread : List α
  hand : List α
  delivered : List α
  conserved : written = delivered ++ hand ++ unread

namespace Conduit
variable {α : Type} {c d : Conduit α}

/-- A stream that nobody has read from. -/
def ofWritten (content : List α) : Conduit α := ⟨content, content, [], [], rfl⟩

def write (c : Conduit α) (chunk : List α) : Conduit α where
  written := c.written ++ chunk
  unread := c.unread ++ chunk
  hand := c.hand
  delivered := c.delivered
  conserved := by rw [c.conserved, List.append_assoc]

/-- A read of `n` bytes into a buffer of `size`, with nothing in hand. -/
def read (c : Conduit α) (size n : Nat) : Option (Conduit α) :=
  if empty : c.hand = [] then
    if 0 < n ∧ n ≤ size ∧ n ≤ c.unread.length then
      some {
        written := c.written
        unread := c.unread.drop n
        hand := c.unread.take n
        delivered := c.delivered
        conserved := by
          rw [c.conserved, empty, List.append_nil, List.append_assoc, List.take_append_drop] }
    else none
  else none

/-- The `write_all` of the chunk in hand. -/
def deliver (c : Conduit α) : Option (Conduit α) :=
  if c.hand = [] then none
  else some {
    written := c.written
    unread := c.unread
    hand := []
    delivered := c.delivered ++ c.hand
    conserved := by rw [c.conserved, List.append_nil] }

/-- The forwarder has passed on all that was written so far. -/
def Drained (c : Conduit α) : Prop := c.hand = [] ∧ c.unread = []

/-- Nothing is in hand and a read finds nothing. -/
def atEof (c : Conduit α) : Bool := c.hand.isEmpty && c.unread.isEmpty

theorem atEof_iff : c.atEof = true ↔ c.Drained := by
  simp [atEof, Drained]

instance (c : Conduit α) : Decidable c.Drained := decidable_of_iff _ atEof_iff

theorem drained_iff : c.Drained ↔ c.delivered = c.written := by
  rw [c.conserved, List.append_assoc]
  constructor
  · rintro ⟨hand, unread⟩
    rw [hand, unread, List.append_nil, List.append_nil]
  · intro same
    have rest : c.hand ++ c.unread = [] := List.self_eq_append_right.mp same
    exact List.append_eq_nil_iff.mp rest

@[simp] theorem written_write (chunk : List α) : (c.write chunk).written = c.written ++ chunk := rfl

@[simp] theorem delivered_write (chunk : List α) : (c.write chunk).delivered = c.delivered := rfl

@[simp] theorem hand_write (chunk : List α) : (c.write chunk).hand = c.hand := rfl

theorem read_written (read : c.read size n = some d) :
    d.written = c.written ∧ d.delivered = c.delivered := by
  unfold Conduit.read at read
  split at read
  · split at read
    · cases read
      exact ⟨rfl, rfl⟩
    · contradiction
  · contradiction

theorem deliver_eq (delivered : c.deliver = some d) :
    d.written = c.written ∧ d.delivered = c.delivered ++ c.hand ∧ d.hand = [] := by
  unfold Conduit.deliver at delivered
  split at delivered
  · contradiction
  · cases delivered
    exact ⟨rfl, rfl, rfl⟩

end Conduit
