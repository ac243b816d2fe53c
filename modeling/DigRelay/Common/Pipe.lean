import DigRelay.Common.Channel

/-!
# What comes out of a channel

A channel is offered messages, its receiver takes the oldest one, and in the end the receiver is dropped
with whatever is still queued. Whatever the order of these events, the messages that come out are the
first of those that were let in, in the order in which they were offered.
-/

namespace Common

/-- Something that happens to a channel. -/
inductive PipeEvent (M : Type*)
  | offer (message : M)
  | take
  | drop

/-- The event with its message seen through a function. -/
def PipeEvent.map {M N : Type*} (f : M → N) : PipeEvent M → PipeEvent N
  | .offer message => .offer (f message)
  | .take => .take
  | .drop => .drop

namespace Channel

variable {M N : Type*}

/-- The channel after an event. -/
def act (channel : Channel M) : PipeEvent M → Channel M
  | .offer message => channel.trySend message
  | .take => { channel with queue := channel.queue.tail }
  | .drop => channel.close

/-- The channel after several events. -/
def actAll (channel : Channel M) (events : List (PipeEvent M)) : Channel M := events.foldl act channel

/-- What an event takes out. -/
def takenBy (channel : Channel M) : PipeEvent M → List M
  | .offer _ => []
  | .take => channel.queue.take 1
  | .drop => []

/-- What an event lets in. -/
def admittedBy (channel : Channel M) : PipeEvent M → List M
  | .offer message => if channel.HasRoom then [message] else []
  | .take => []
  | .drop => []

/-- What an event throws away. -/
def lostBy (channel : Channel M) : PipeEvent M → List M
  | .offer _ => []
  | .take => []
  | .drop => channel.queue

/-- Collect what each event contributes in the state it meets. -/
def collect (part : Channel M → PipeEvent M → List N) : Channel M → List (PipeEvent M) → List N
  | _, [] => []
  | channel, event :: events => part channel event ++ collect part (channel.act event) events

/-- The messages taken out, in order. -/
def taken : Channel M → List (PipeEvent M) → List M := collect takenBy

/-- The messages let in, in order. -/
def admitted : Channel M → List (PipeEvent M) → List M := collect admittedBy

/-- The messages thrown away with the receiver. -/
def lost : Channel M → List (PipeEvent M) → List M := collect lostBy

/-- The messages offered, in order. -/
def offered (events : List (PipeEvent M)) : List M :=
  events.filterMap fun event => match event with
    | .offer message => some message
    | _ => none

/-- Nothing comes out without an event. -/
@[simp] theorem taken_nil (channel : Channel M) : channel.taken [] = [] := rfl

/-- What one event takes out. -/
@[simp] theorem taken_singleton (channel : Channel M) (event : PipeEvent M) :
    channel.taken [event] = channel.takenBy event := List.append_nil _

/-- Nothing is lost without an event. -/
@[simp] theorem lost_nil (channel : Channel M) : channel.lost [] = [] := rfl

/-- What one event throws away. -/
@[simp] theorem lost_singleton (channel : Channel M) (event : PipeEvent M) :
    channel.lost [event] = channel.lostBy event := List.append_nil _

/-- Events one after the other contribute one after the other. -/
theorem collect_append (part : Channel M → PipeEvent M → List N) (channel : Channel M)
    (first later : List (PipeEvent M)) :
    collect part channel (first ++ later) =
      collect part channel first ++ collect part (channel.actAll first) later := by
  induction first generalizing channel with
  | nil => rfl
  | cons event first ih =>
    rw [List.cons_append, collect, collect, ih, List.append_assoc]
    rfl

/-- Nothing is let in once the receiver is gone. -/
theorem admitted_of_closed {channel : Channel M} (h : channel.closed = true)
    (events : List (PipeEvent M)) : channel.admitted events = [] := by
  unfold admitted
  induction events generalizing channel with
  | nil => rfl
  | cons event events ih =>
    have hafter : (channel.act event).closed = true := by
      cases event with
      | offer message => rw [act, trySend_closed, h]
      | take => exact h
      | drop => rfl
    have hnone : channel.admittedBy event = [] := by
      cases event with
      | offer message => exact if_neg fun hroom => by simp [hroom.1] at h
      | take => rfl
      | drop => rfl
    rw [collect, hnone, ih hafter, List.nil_append]

/-- Everything that was queued or let in is taken out, thrown away or still queued, in this order. -/
theorem taken_lost_queue (channel : Channel M) (events : List (PipeEvent M)) :
    channel.taken events ++ channel.lost events ++ (channel.actAll events).queue =
      channel.queue ++ channel.admitted events := by
  induction events generalizing channel with
  | nil => simp [taken, lost, admitted, collect, actAll]
  | cons event events ih =>
    have hrest := ih (channel.act event)
    have hlast : channel.actAll (event :: events) = (channel.act event).actAll events := rfl
    unfold taken lost admitted at hrest ⊢
    rw [hlast, collect, collect, collect]
    cases event with
    | offer message =>
      have hqueue : (channel.act (.offer message)).queue =
          channel.queue ++ channel.admittedBy (.offer message) := by
        rw [act, admittedBy, trySend]
        split <;> simp
      rw [hqueue, List.append_assoc channel.queue] at hrest
      exact hrest
    | take =>
      have hqueue : channel.queue = channel.queue.take 1 ++ channel.queue.tail := by
        rw [← List.drop_one, List.take_append_drop]
      have hact : (channel.act .take).queue = channel.queue.tail := rfl
      rw [hact] at hrest
      rw [admittedBy, takenBy, lostBy, List.nil_append, List.nil_append, List.append_assoc,
        List.append_assoc, ← List.append_assoc (collect takenBy _ _), hrest, ← List.append_assoc,
        ← hqueue]
    | drop =>
      have hadmitted : collect admittedBy (channel.act .drop) events = [] := admitted_of_closed rfl events
      have hempty : (channel.act .drop).queue ++ [] = [] := rfl
      rw [hadmitted] at hrest ⊢
      rw [hempty, List.append_eq_nil_iff, List.append_eq_nil_iff] at hrest
      obtain ⟨⟨htaken, hlost⟩, hqueue⟩ := hrest
      rw [htaken, hlost, hqueue]
      simp [takenBy, lostBy, admittedBy]

/-- What is let in is offered. -/
theorem admitted_sublist_offered (channel : Channel M) (events : List (PipeEvent M)) :
    (channel.admitted events).Sublist (offered events) := by
  unfold admitted
  induction events generalizing channel with
  | nil => exact List.Sublist.refl _
  | cons event events ih =>
    have hrest := ih (channel.act event)
    rw [collect]
    cases event with
    | offer message =>
      have hoffered : offered (.offer message :: events) = [message] ++ offered events := rfl
      have hfirst : (channel.admittedBy (.offer message)).Sublist [message] := by
        rw [admittedBy]
        split
        · exact List.Sublist.refl _
        · exact List.nil_sublist _
      rw [hoffered]
      exact hfirst.append hrest
    | take => exact hrest
    | drop => exact hrest

/-- What comes out are the first messages let in. -/
theorem taken_prefix_admitted (capacity : ℕ) (events : List (PipeEvent M)) :
    (empty capacity).taken events <+: (empty capacity).admitted events := by
  have hall := taken_lost_queue (empty capacity) events
  rw [List.append_assoc] at hall
  exact ⟨_, hall.trans (List.nil_append _)⟩

/-- Offers take nothing out. -/
theorem taken_offers (channel : Channel M) (messages : List M) :
    channel.taken (messages.map .offer) = [] := by
  unfold taken
  induction messages generalizing channel with
  | nil => rfl
  | cons message messages ih => exact ih (channel.trySend message)

/-- Offers throw nothing away. -/
theorem lost_offers (channel : Channel M) (messages : List M) :
    channel.lost (messages.map .offer) = [] := by
  unfold lost
  induction messages generalizing channel with
  | nil => rfl
  | cons message messages ih => exact ih (channel.trySend message)

/-- Only offers are let in. -/
theorem offered_map_offer (messages : List M) : offered (messages.map .offer) = messages := by
  rw [offered, List.filterMap_map]
  exact List.filterMap_some

section Map

variable (f : M → N)

/-- The channel with its messages seen through a function. -/
def map (channel : Channel M) : Channel N :=
  { capacity := channel.capacity, queue := channel.queue.map f, closed := channel.closed }

/-- A channel does not look at its messages. -/
theorem act_map (channel : Channel M) (event : PipeEvent M) :
    (channel.map f).act (event.map f) = (channel.act event).map f := by
  cases event with
  | offer message =>
    have hroom : (channel.map f).HasRoom ↔ channel.HasRoom := by simp [HasRoom, map]
    simp only [PipeEvent.map, act, trySend, hroom]
    split
    · simp [map]
    · rfl
  | take => simp [PipeEvent.map, act, map]
  | drop => rfl

/-- A channel does not look at its messages, however many there are. -/
theorem actAll_map (channel : Channel M) (events : List (PipeEvent M)) :
    (channel.map f).actAll (events.map (PipeEvent.map f)) = (channel.actAll events).map f := by
  induction events generalizing channel with
  | nil => rfl
  | cons event events ih =>
    have hrest := ih (channel.act event)
    rw [← act_map] at hrest
    exact hrest

end Map

end Channel

end Common
