import Mathlib.Data.List.Basic

/-!
# Bounded channels with non-blocking sends

A channel holds at most `capacity` messages. A non-blocking send to a full channel, or to a
channel whose receiver is gone, drops its message and changes nothing. Closing is permanent,
and no send reopens a channel.
-/

namespace Common

/-- A bounded queue and whether its receiver has been dropped. -/
structure Channel (M : Type*) where
  capacity : ℕ
  queue : List M
  closed : Bool

namespace Channel

variable {M : Type*}

/-- A fresh open channel. -/
def empty (capacity : ℕ) : Channel M := ⟨capacity, [], false⟩

/-- Room for one more message, with a receiver to take it. -/
def HasRoom (channel : Channel M) : Prop :=
  channel.closed = false ∧ channel.queue.length < channel.capacity

instance (channel : Channel M) : Decidable channel.HasRoom :=
  inferInstanceAs (Decidable (_ ∧ _))

/-- Enqueue the message, or drop it when the channel is full or closed. -/
def trySend (channel : Channel M) (message : M) : Channel M :=
  if channel.HasRoom then { channel with queue := channel.queue ++ [message] } else channel

/-- Drop the receiver together with whatever is still queued. -/
def close (channel : Channel M) : Channel M := { channel with queue := [], closed := true }

/-- Take the oldest message, if there is one. -/
def recv (channel : Channel M) : Option (M × Channel M) :=
  match channel.queue with
  | [] => none
  | message :: rest => some (message, { channel with queue := rest })

/-- A send without room changes nothing. -/
theorem trySend_of_not_hasRoom {channel : Channel M} (h : ¬ channel.HasRoom) (message : M) :
    channel.trySend message = channel := if_neg h

/-- Closing a closed channel again changes nothing, once it is empty. -/
theorem close_eq_self {channel : Channel M} (hqueue : channel.queue = [])
    (hclosed : channel.closed = true) : channel.close = channel := by
  rw [close, ← hqueue, ← hclosed]

/-- A send never changes whether the receiver is gone. -/
@[simp] theorem trySend_closed (channel : Channel M) (message : M) :
    (channel.trySend message).closed = channel.closed := by
  unfold trySend
  split <;> rfl

/-- A send enqueues nothing but its message. -/
theorem mem_of_mem_trySend {channel : Channel M} {message other : M}
    (h : other ∈ (channel.trySend message).queue) : other ∈ channel.queue ∨ other = message := by
  unfold trySend at h
  split at h
  · rcases List.mem_append.mp h with hold | hnew
    · exact .inl hold
    · exact .inr (List.mem_singleton.mp hnew)
  · exact .inl h

/-- Send several messages in order. -/
def sendAll (channel : Channel M) (messages : List M) : Channel M := messages.foldl trySend channel

/-- Without a receiver nothing is enqueued. -/
theorem sendAll_of_closed {channel : Channel M} (h : channel.closed = true) (messages : List M) :
    channel.sendAll messages = channel := by
  induction messages with
  | nil => rfl
  | cons message rest ih =>
    have hsend : channel.trySend message = channel :=
      trySend_of_not_hasRoom (fun hroom => Bool.noConfusion (h.symm.trans hroom.1)) message
    rw [sendAll, List.foldl_cons, hsend]
    exact ih

/-- With a receiver, as many messages are enqueued in order as there is room for. -/
theorem sendAll_of_open {channel : Channel M} (h : channel.closed = false) (messages : List M) :
    channel.sendAll messages = { channel with
      queue := channel.queue ++ messages.take (channel.capacity - channel.queue.length) } := by
  induction messages generalizing channel with
  | nil => simp [sendAll]
  | cons message rest ih =>
    rw [sendAll, List.foldl_cons]
    by_cases hroom : channel.queue.length < channel.capacity
    · have hsend : channel.trySend message = { channel with queue := channel.queue ++ [message] } :=
        if_pos ⟨h, hroom⟩
      have hrest := @ih { channel with queue := channel.queue ++ [message] } h
      obtain ⟨room, hroom'⟩ : ∃ room, channel.capacity - channel.queue.length = room + 1 :=
        ⟨channel.capacity - channel.queue.length - 1, by omega⟩
      have hless : channel.capacity - (channel.queue ++ [message]).length = room := by
        rw [List.length_append, List.length_singleton]
        omega
      rw [hless, List.append_assoc] at hrest
      rw [hsend, hroom', List.take_succ_cons]
      exact hrest
    · have hfull : channel.capacity - channel.queue.length = 0 := by omega
      have hrest := ih h
      rw [hfull, List.take_zero] at hrest
      rw [trySend_of_not_hasRoom (fun hroom' => hroom hroom'.2), hfull, List.take_zero]
      exact hrest

/-- With a receiver and room for all of them, several messages are enqueued in order. -/
theorem sendAll_of_room {channel : Channel M} {messages : List M} (hopen : channel.closed = false)
    (hroom : channel.queue.length + messages.length ≤ channel.capacity) :
    channel.sendAll messages = { channel with queue := channel.queue ++ messages } := by
  rw [sendAll_of_open hopen, List.take_of_length_le (by omega)]

/-- Receiving enqueues nothing. -/
theorem recv_queue_subset {channel rest : Channel M} {message : M}
    (h : channel.recv = some (message, rest)) : rest.queue ⊆ channel.queue := by
  unfold recv at h
  split at h
  · contradiction
  · rename_i queue hqueue
    simp only [Option.some.injEq, Prod.mk.injEq] at h
    rw [← h.2, hqueue]
    exact List.subset_cons_self _ _

/-- Receiving takes one message. -/
theorem recv_length {channel rest : Channel M} {message : M}
    (h : channel.recv = some (message, rest)) : rest.queue.length + 1 = channel.queue.length := by
  unfold recv at h
  split at h
  · contradiction
  · rename_i queue hqueue
    simp only [Option.some.injEq, Prod.mk.injEq] at h
    rw [← h.2, hqueue, List.length_cons]

/-- A send enqueues at most one message. -/
theorem trySend_length_le (channel : Channel M) (message : M) :
    (channel.trySend message).queue.length ≤ channel.queue.length + 1 := by
  unfold trySend
  split
  · exact Nat.le_of_eq List.length_append
  · exact Nat.le_succ _

/-- Receiving leaves the receiver in place. -/
theorem recv_closed {channel rest : Channel M} {message : M}
    (h : channel.recv = some (message, rest)) : rest.closed = channel.closed := by
  unfold recv at h
  split at h
  · contradiction
  · simp only [Option.some.injEq, Prod.mk.injEq] at h
    rw [← h.2]

end Channel

end Common
