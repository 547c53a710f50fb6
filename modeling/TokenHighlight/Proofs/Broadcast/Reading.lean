import Mathlib.Data.List.Basic
import TokenHighlight.Listener.Broadcast

/-!
# Reading from a channel

How many events a receiver gets before it has to wait is settled by the number of notifications that
it is not past. Each that is kept gives an event. Those that are not kept give one event together,
so the most that a receiver can get without a new notification is one event more than are kept.

Asking once is reading with a limit of one event, and `drain` with another limit is asking so many
times. Proofs about runs therefore look at single polls only.

## Main definitions

* `Broadcast.Poll` — what a receiver is told when it asks once

## Main results

* `Broadcast.sub_receive` — how much an event leaves unread
* `Broadcast.drain_none`, `Broadcast.drain_one` — reading to the end, and asking once
* `Broadcast.lookup_replace`, `Broadcast.mem_of_lookup` — who has a name
* `Broadcast.Hub.receive?_of_lookup` — reading by a receiver that is there
-/

namespace TokenHighlight.Broadcast

variable {sent next events : Nat} {isOpen : Bool} {limit : Option Nat}

/-! ### Events before the end -/

/-- An event takes a receiver past one notification, or past all that are not kept. -/
theorem sub_receive (isOpen : Bool) (h : next < sent) :
    sent - (receive sent isOpen next).2 = min (sent - next - 1) capacity := by
  rw [receive, if_pos h]
  split
  · show sent - (next + 1) = _
    omega
  · show sent - (sent - capacity) = _
    omega

theorem receive_of_le (h : sent ≤ next) :
    receive sent isOpen next = (if isOpen then .empty else .closed, next) :=
  if_neg (Nat.not_lt_of_le h)

theorem drain_of_limit (h : limit = some events) :
    drain sent isOpen limit events next = ⟨events, .limit, next⟩ := by
  rw [drain, if_pos h]

/-- Before the limit it depends on what the channel says whether reading goes on. -/
theorem drain_of_ne_limit (h : limit ≠ some events) :
    drain sent isOpen limit events next =
      match (receive sent isOpen next).1.stop? with
      | none => drain sent isOpen limit (events + 1) (receive sent isOpen next).2
      | some stop => ⟨events, stop, next⟩ := by
  rw [drain, if_neg h]
  split
  · next hstop => rw [hstop]
  · next hstop => rw [hstop]

/-- Where a notification is left, reading goes on behind an event. -/
theorem drain_of_lt (hlimit : limit ≠ some events) (h : next < sent) :
    drain sent isOpen limit events next =
      drain sent isOpen limit (events + 1) (receive sent isOpen next).2 := by
  rw [drain_of_ne_limit hlimit, stop?_receive_eq_none_iff.2 h]

/-- Where none is left, reading ends. -/
theorem drain_of_le (hlimit : limit ≠ some events) (h : sent ≤ next) :
    drain sent isOpen limit events next =
      ⟨events, if isOpen then .pending else .closed, next⟩ := by
  rw [drain_of_ne_limit hlimit, receive_of_le h]
  cases isOpen <;> rfl

/-- **Reading to the end** gives an event for each notification that is kept, and one for those that
are not. -/
theorem drain_none (isOpen : Bool) (events : Nat) (h : next ≤ sent) :
    drain sent isOpen none events next =
      ⟨events + min (sent - next) (capacity + 1), if isOpen then .pending else .closed, sent⟩ := by
  induction hk : sent - next using Nat.strongRecOn generalizing events next with
  | ind k ih =>
    have hlimit : (none : Option Nat) ≠ some events := nofun
    rcases Nat.lt_or_eq_of_le h with hlt | rfl
    · have hstep : sent - (receive sent isOpen next).2 = min (k - 1) capacity := by
        rw [sub_receive isOpen hlt, hk]
      rw [drain_of_lt hlimit hlt, ih _ (by omega) (events + 1) (receive_le isOpen h) hstep]
      congr 1
      omega
    · rw [drain_of_le hlimit (Nat.le_refl next), ← hk, Nat.sub_self, Nat.zero_min]
      rfl

/-- What a receiver is told when it asks for its next event. -/
inductive Poll
  | event
  | waits
  | ended
deriving DecidableEq, Repr

/-- Asking once stops at the limit with an event, and before it without one. -/
def Stop.poll : Stop → Poll
  | .limit => .event
  | .pending => .waits
  | .closed => .ended

/-- **Asking once** gives an event as long as there is one. -/
theorem drain_one (sent next : Nat) (isOpen : Bool) :
    drain sent isOpen (some 1) 0 next =
      if next < sent then ⟨1, .limit, (receive sent isOpen next).2⟩
      else ⟨0, if isOpen then .pending else .closed, next⟩ := by
  split
  · next hlt => rw [drain_of_lt (by decide) hlt, drain_of_limit rfl]
  · next hge => exact drain_of_le (by decide) (Nat.le_of_not_lt hge)

/-- Behind a poll as many notifications are unread as are kept of those that were, less one. -/
theorem next_drain_one_add (isOpen : Bool) (h : next ≤ sent) :
    (drain sent isOpen (some 1) 0 next).next + min (sent - next - 1) capacity = sent := by
  rw [drain_one]
  split
  · next hlt =>
    rw [← sub_receive isOpen hlt]
    exact Nat.add_sub_of_le (receive_le isOpen h)
  · next hge =>
    obtain rfl : next = sent := Nat.le_antisymm h (Nat.le_of_not_lt hge)
    rw [Nat.sub_self, Nat.zero_sub, Nat.zero_min]
    rfl

/-! ### Names -/

section Entries

variable {α : Type} {name other : String} {value : α} {entries : List (String × α)}

theorem lookup_cons_eq_ite (name other : String) (value : α) (entries : List (String × α)) :
    List.lookup other ((name, value) :: entries) =
      if other = name then some value else entries.lookup other := by
  rw [List.lookup_cons]
  split
  · next h => rw [if_pos (eq_of_beq h)]
  · next h => rw [if_neg (ne_of_beq_false h)]

theorem lookup_filter_ne (name other : String) (entries : List (String × α)) :
    (entries.filter (·.1 ≠ name)).lookup other =
      if other = name then none else entries.lookup other := by
  induction entries with
  | nil => split <;> rfl
  | cons e entries ih =>
    by_cases he : e.1 = name
    · rw [List.filter_cons_of_neg (by simpa using he), ih, lookup_cons_eq_ite]
      split
      · rfl
      · next ho => rw [if_neg (he ▸ ho)]
    · rw [List.filter_cons_of_pos (by simpa using he), lookup_cons_eq_ite, lookup_cons_eq_ite, ih]
      by_cases ho : other = name
      · rw [if_neg (ho ▸ Ne.symm he), if_pos ho, if_pos ho]
      · rw [if_neg ho, if_neg ho]

theorem lookup_replace (name other : String) (value : α) (entries : List (String × α)) :
    (Hub.replace name value entries).lookup other =
      if other = name then some value else entries.lookup other := by
  rw [Hub.replace, lookup_cons_eq_ite, lookup_filter_ne]
  split <;> rfl

theorem mem_of_lookup (h : entries.lookup name = some value) : (name, value) ∈ entries := by
  obtain ⟨before, after, rfl, _⟩ := List.lookup_eq_some_iff.1 h
  simp

end Entries

/-! ### A receiver that reads -/

variable {h : Hub} {receiver : String}

theorem Hub.receive?_of_lookup {r : Receiver} (hr : h.receivers.lookup receiver = some r)
    (isAttached : Nat → Bool) (limit : Option Nat) :
    h.receive? isAttached receiver limit =
      let d := drain (h.sentOn r.channel) (h.hasSender r.channel || isAttached r.channel) limit 0
        r.next
      some (d, { h with receivers := replace receiver { r with next := d.next } h.receivers }) := by
  rw [receive?, hr]
  rfl

theorem Hub.receive?_of_lookup_eq_none (hr : h.receivers.lookup receiver = none)
    (isAttached : Nat → Bool) (limit : Option Nat) :
    h.receive? isAttached receiver limit = none := by
  rw [receive?, hr]
  rfl

end TokenHighlight.Broadcast
