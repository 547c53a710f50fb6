/-!
# Registered listeners

Listeners are called in the order in which they were registered. The same listener may be
registered more than once, and is then called once for each registration; a registration is ended
by the name it was given.

Names are chosen by whoever registers. That no two registrations have the same name is up to them.

## Main definitions

* `Listeners` — registrations in order
* `Listeners.subscribe`, `Listeners.unsubscribe`
* `Listeners.called` — whom a notification reaches

## Main statements

* `Listeners.called_subscribe` — a new registration is called last
* `Listeners.unsubscribe_of_not_isSubscribed` — ending what is not there changes nothing
-/

namespace TokenHighlight

/-- Listeners under the names of their registrations, in the order of registration. -/
structure Listeners (ι α : Type) where
  entries : List (ι × α)
deriving Repr

namespace Listeners

variable {ι α : Type}

/-- Nobody is registered. -/
def empty : Listeners ι α :=
  ⟨[]⟩

/-- Registers a listener behind all others. -/
def subscribe (ls : Listeners ι α) (id : ι) (listener : α) : Listeners ι α :=
  ⟨ls.entries ++ [(id, listener)]⟩

/-- Whether a registration with this name is there. -/
def isSubscribed [DecidableEq ι] (ls : Listeners ι α) (id : ι) : Bool :=
  ls.entries.any fun e => e.1 = id

/-- Ends a registration, and tells whether it was there. -/
def unsubscribe [DecidableEq ι] (ls : Listeners ι α) (id : ι) : Bool × Listeners ι α :=
  (ls.isSubscribed id, ⟨ls.entries.eraseP fun e => e.1 = id⟩)

/-- The listeners that a notification calls, in the order of the calls. -/
def called (ls : Listeners ι α) : List α :=
  ls.entries.map (·.2)

@[simp] theorem called_empty : (empty : Listeners ι α).called = [] := rfl

@[simp] theorem called_subscribe (ls : Listeners ι α) (id : ι) (listener : α) :
    (ls.subscribe id listener).called = ls.called ++ [listener] := by
  simp [called, subscribe]

theorem isSubscribed_subscribe [DecidableEq ι] (ls : Listeners ι α) (id other : ι) (listener : α) :
    (ls.subscribe id listener).isSubscribed other =
      (ls.isSubscribed other || decide (id = other)) := by
  simp [isSubscribed, subscribe]

theorem unsubscribe_of_not_isSubscribed [DecidableEq ι] {ls : Listeners ι α} {id : ι}
    (h : ls.isSubscribed id = false) : ls.unsubscribe id = (false, ls) := by
  have hkeep : ls.entries.eraseP (fun e => decide (e.1 = id)) = ls.entries := by
    apply List.eraseP_of_forall_not
    simpa [isSubscribed] using h
  simp [unsubscribe, h, hkeep]

/-- How many registrations there are. -/
def size (ls : Listeners ι α) : Nat :=
  ls.entries.length

/-- Whether nobody is registered. -/
def isEmpty (ls : Listeners ι α) : Bool :=
  ls.entries.isEmpty

@[simp] theorem length_called (ls : Listeners ι α) : ls.called.length = ls.size := by
  simp [called, size]

end Listeners

end TokenHighlight
