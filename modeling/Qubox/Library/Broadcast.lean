import Mathlib.Data.List.Basic

/-!
# A broadcast channel that forgets

A channel keeps its last `capacity` values, and senders never wait. A receiver that has fallen
further behind is told how many values it has missed, and goes on with the oldest one that is
kept. `Accounts` says what it has got then.
-/

namespace Broadcast

/-- A receiver, and what has been sent since there is one. -/
structure Receiver (α : Type) where
  sent : List α := []
  next : Nat := 0

inductive Received (α : Type) where
  | value (a : α)
  | lagged (count : Nat)
  | pending

namespace Receiver

variable {α : Type} {capacity : Nat} {r t : Receiver α} {a : α} {got : List α} {lost count : Nat}

def send (r : Receiver α) (a : α) : Receiver α := { r with sent := r.sent ++ [a] }

def unread (r : Receiver α) : Nat := r.sent.length - r.next

def recv (capacity : Nat) (r : Receiver α) : Received α × Receiver α :=
  if capacity < r.unread then
    let missed := r.unread - capacity
    (.lagged missed, { r with next := r.next + missed })
  else
    match r.sent[r.next]? with
    | none => (.pending, r)
    | some a => (.value a, { r with next := r.next + 1 })

theorem recv_value (received : r.recv capacity = (.value a, t)) :
    r.sent[r.next]? = some a ∧ t = { r with next := r.next + 1 } := by
  rw [recv] at received
  split at received
  · cases received
  split at received
  · cases received
  next value here =>
  cases received
  exact ⟨here, rfl⟩

theorem recv_lagged (received : r.recv capacity = (.lagged count, t)) :
    capacity < r.unread ∧ count = r.unread - capacity ∧ t = { r with next := r.next + count } := by
  rw [recv] at received
  split at received
  next behind =>
    cases received
    exact ⟨behind, rfl, rfl⟩
  · split at received <;> cases received

/-- A receiver that has kept up misses nothing. -/
theorem recv_ne_lagged (prompt : r.unread ≤ capacity) : r.recv capacity ≠ (.lagged count, t) :=
  fun received => Nat.not_lt_of_le prompt (recv_lagged received).1

/-- The receiver has got these values in the order in which they were sent, and has been told of
every other one before its position. -/
structure Accounts (r : Receiver α) (got : List α) (lost : Nat) : Prop where
  sublist : got.Sublist (r.sent.take r.next)
  count : got.length + lost = r.next
  next_le : r.next ≤ r.sent.length

namespace Accounts

theorem start : Accounts ({} : Receiver α) [] 0 where
  sublist := List.Sublist.refl _
  count := rfl
  next_le := Nat.le_refl 0

theorem send (accounts : r.Accounts got lost) (a : α) : (r.send a).Accounts got lost where
  sublist := by
    show got.Sublist ((r.sent ++ [a]).take r.next)
    rw [List.take_append_of_le_length accounts.next_le]
    exact accounts.sublist
  count := accounts.count
  next_le := by
    show r.next ≤ (r.sent ++ [a]).length
    rw [List.length_append]
    exact Nat.le_add_right_of_le accounts.next_le

theorem value (accounts : r.Accounts got lost) (received : r.recv capacity = (.value a, t)) :
    t.Accounts (got ++ [a]) lost := by
  obtain ⟨here, rfl⟩ := recv_value received
  constructor
  case sublist =>
    show (got ++ [a]).Sublist (r.sent.take (r.next + 1))
    rw [List.take_add_one, here]
    exact accounts.sublist.append_right [a]
  case count =>
    have before := accounts.count
    show (got ++ [a]).length + lost = r.next + 1
    rw [List.length_append, List.length_singleton]
    omega
  case next_le =>
    obtain ⟨inside, -⟩ := List.getElem?_eq_some_iff.mp here
    exact inside

theorem lagged (accounts : r.Accounts got lost) (received : r.recv capacity = (.lagged count, t)) :
    t.Accounts got (lost + count) := by
  obtain ⟨behind, missed, rfl⟩ := recv_lagged received
  constructor
  case sublist =>
    exact accounts.sublist.trans (List.take_sublist_take_left (Nat.le_add_right _ count))
  case count =>
    have before := accounts.count
    show got.length + (lost + count) = r.next + count
    omega
  case next_le =>
    have := accounts.next_le
    show r.next + count ≤ r.sent.length
    rw [unread] at missed
    omega

/-- Who has missed nothing has got all that was sent, up to what is still unread. -/
theorem complete (accounts : r.Accounts got 0) : got = r.sent.take r.next := by
  apply accounts.sublist.eq_of_length
  rw [List.length_take_of_le accounts.next_le]
  exact accounts.count

end Accounts

end Receiver

end Broadcast
