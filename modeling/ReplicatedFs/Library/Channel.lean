/-!
# `ReplicatedFs.Library.Channel`: a buffered channel

A channel with room for `capacity` values. A send is not enabled while the buffer is full, and a
receive is not enabled while it is empty. `sent` and `received` are histories. That nothing is lost,
doubled or overtaken is a field of the type.
-/

set_option autoImplicit false

namespace Library

/-- A buffered channel, with all values that went in and came out so far. -/
structure Channel (α : Type) where
  capacity : Nat
  buffer : List α
  sent : List α
  received : List α
  order : sent = received ++ buffer
  room : buffer.length ≤ capacity

namespace Channel
variable {α : Type}

/-- A channel that was not used. -/
def empty (capacity : Nat) : Channel α := ⟨capacity, [], [], [], rfl, Nat.zero_le _⟩

/-- The channel after a send. -/
def send (c : Channel α) (a : α) : Option (Channel α) :=
  if h : c.buffer.length < c.capacity then
    some ⟨c.capacity, c.buffer ++ [a], c.sent ++ [a], c.received,
      by rw [c.order, List.append_assoc], by rw [List.length_append]; exact h⟩
  else none

/-- The value that is received first, and the channel after that. -/
def receive (c : Channel α) : Option (α × Channel α) :=
  match h : c.buffer with
  | [] => none
  | a :: rest =>
    some (a, ⟨c.capacity, rest, c.sent, c.received ++ [a], by rw [c.order, h]; simp,
      by have hroom := c.room; rw [h] at hroom; exact Nat.le_of_succ_le hroom⟩)

/-- A send puts the value behind all that wait. It is also the last one of those that were ever
sent, and it takes nothing from the receiver. -/
theorem send_eq_some {c c' : Channel α} {a : α} (h : c.send a = some c') :
    c'.buffer = c.buffer ++ [a] ∧ c'.sent = c.sent ++ [a] ∧ c'.received = c.received ∧
      c'.capacity = c.capacity := by
  unfold send at h
  split at h <;> cases h
  exact ⟨rfl, rfl, rfl, rfl⟩

/-- A receive takes the value that waits longest, so the values are received in the order in which
they were sent. -/
theorem receive_eq_some {c c' : Channel α} {a : α} (h : c.receive = some (a, c')) :
    c.buffer = a :: c'.buffer ∧ c'.sent = c.sent ∧ c'.received = c.received ++ [a] ∧
      c'.capacity = c.capacity := by
  unfold receive at h
  split at h
  · cases h
  · rename_i b rest hbuffer
    cases h
    exact ⟨hbuffer, rfl, rfl, rfl⟩

end Channel

end Library
