/-!
# Broadcasting

A channel passes notifications on to receivers that read at their own pace. All that a notification
says is that something changed, so a channel is the number of notifications sent on it, and a
receiver the number of those it is past.

A channel keeps the last `capacity` notifications. A receiver that is further behind is told how
many it has missed, and goes on with those that are kept. Behind the last one it waits as long as
something can be sent, and is closed when nothing can.

What the channel says is one thing, and what a receiver makes of it another. That notifications were
missed still means that something changed, so it counts as an event like a notification.

## Main definitions

* `Broadcast.capacity`
* `Broadcast.Received`, `Broadcast.receive` — what a channel says to a receiver
* `Broadcast.Stop`, `Broadcast.Received.stop?` — what a receiver makes of it
* `Broadcast.drain` — reading until nothing is left or enough is read
* `Broadcast.Hub` — channels, their senders and their receivers, by name

## Main statements

* `Broadcast.lt_receive`, `Broadcast.receive_le` — an event takes a receiver further, but not past
  what was sent
-/

namespace TokenHighlight.Broadcast

/-- How many notifications a channel keeps. -/
def capacity : Nat := 64

/-- What a channel says to a receiver that reads. -/
inductive Received
  | notification
  /-- So many notifications were missed, since they are not kept any more. -/
  | lagged (missed : Nat)
  | empty
  | closed
deriving DecidableEq, Repr

/-- Reads once, and tells where the receiver is then. `isOpen` says whether something can still be
sent. -/
def receive (sent : Nat) (isOpen : Bool) (next : Nat) : Received × Nat :=
  if next < sent then
    if sent ≤ next + capacity then (.notification, next + 1)
    else (.lagged (sent - capacity - next), sent - capacity)
  else (if isOpen then .empty else .closed, next)

/-- Why reading stopped. -/
inductive Stop
  /-- Nothing is left for now. -/
  | pending
  /-- Nothing is left, and nothing can come. -/
  | closed
  /-- As much was read as was asked for. -/
  | limit
deriving DecidableEq, Repr

/-- Why there is no event in what a channel says, unless it is one. -/
def Received.stop? : Received → Option Stop
  | notification => none
  | lagged _ => none
  | empty => some .pending
  | closed => some .closed

theorem stop?_receive_eq_none_iff {sent next : Nat} {isOpen : Bool} :
    (receive sent isOpen next).1.stop? = none ↔ next < sent := by
  rw [receive]
  split
  · next h =>
    refine iff_of_true ?_ h
    split <;> rfl
  · next h => exact iff_of_false (by cases isOpen <;> exact nofun) h

theorem lt_receive {sent next : Nat} (isOpen : Bool) (h : next < sent) :
    next < (receive sent isOpen next).2 := by
  rw [receive, if_pos h]
  split
  · exact Nat.lt_succ_self next
  · show next < sent - capacity
    omega

theorem receive_le {sent next : Nat} (isOpen : Bool) (h : next ≤ sent) :
    (receive sent isOpen next).2 ≤ sent := by
  rw [receive]
  split
  · split
    · show next + 1 ≤ sent
      omega
    · exact Nat.sub_le sent capacity
  · exact h

/-- What came of reading: the number of events, why it stopped, and where the receiver is. -/
structure Drained where
  events : Nat
  stop : Stop
  next : Nat
deriving DecidableEq, Repr

/-- Reads events until nothing is left or the limit is reached. Whether it is reached is looked at
first. -/
def drain (sent : Nat) (isOpen : Bool) (limit : Option Nat) (events next : Nat) : Drained :=
  if limit = some events then ⟨events, .limit, next⟩
  else
    match hstop : (receive sent isOpen next).1.stop? with
    | none => drain sent isOpen limit (events + 1) (receive sent isOpen next).2
    | some stop => ⟨events, stop, next⟩
termination_by sent - next
decreasing_by
  have hlt := stop?_receive_eq_none_iff.1 hstop
  have := lt_receive isOpen hlt
  omega

/-- A receiver of a channel. -/
structure Receiver where
  channel : Nat
  next : Nat
deriving DecidableEq, Repr

/-- Channels, by number; the senders that have a name, each with its channel; and receivers. -/
structure Hub where
  /-- How many notifications were sent on each channel. -/
  sent : List Nat
  senders : List (String × Nat)
  receivers : List (String × Receiver)
deriving Repr

namespace Hub

/-- No channels. -/
def empty : Hub :=
  ⟨[], [], []⟩

/-- How many notifications were sent on a channel. -/
def sentOn (h : Hub) (channel : Nat) : Nat :=
  h.sent.getD channel 0

/-- The channel of a sender. -/
def channelOf? (h : Hub) (name : String) : Option Nat :=
  h.senders.lookup name

/-- Puts an entry in the place of the one with the same name. -/
def replace {α : Type} (name : String) (value : α) (entries : List (String × α)) :
    List (String × α) :=
  (name, value) :: entries.filter (·.1 ≠ name)

/-- Makes a channel with one sender. A sender that had the name is dropped. -/
def create (h : Hub) (name : String) : Hub :=
  { h with sent := h.sent ++ [0], senders := replace name h.sent.length h.senders }

/-- Makes another sender of the channel that a sender has. -/
def clone? (h : Hub) (name copy : String) : Option Hub := do
  return { h with senders := replace copy (← h.channelOf? name) h.senders }

/-- Drops a sender, and tells whether it was there. -/
def drop (h : Hub) (name : String) : Bool × Hub :=
  ((h.channelOf? name).isSome, { h with senders := h.senders.filter (·.1 ≠ name) })

/-- Makes a receiver for what is sent from now on. -/
def listen? (h : Hub) (name receiver : String) : Option Hub := do
  let channel ← h.channelOf? name
  return { h with receivers := replace receiver ⟨channel, h.sentOn channel⟩ h.receivers }

/-- Sends so many notifications on a channel. -/
def send (h : Hub) (channel times : Nat) : Hub :=
  { h with sent := h.sent.modify channel (· + times) }

/-- Whether a channel has a sender with a name. -/
def hasSender (h : Hub) (channel : Nat) : Bool :=
  h.senders.any (·.2 = channel)

/-- Lets a receiver read. `isAttached` says which channels have a sender without a name. -/
def receive? (h : Hub) (isAttached : Nat → Bool) (receiver : String) (limit : Option Nat) :
    Option (Drained × Hub) := do
  let r ← h.receivers.lookup receiver
  let isOpen := h.hasSender r.channel || isAttached r.channel
  let d := drain (h.sentOn r.channel) isOpen limit 0 r.next
  return (d, { h with receivers := replace receiver { r with next := d.next } h.receivers })

end Hub

end TokenHighlight.Broadcast
