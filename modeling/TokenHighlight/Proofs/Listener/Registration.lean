import Mathlib.Data.List.Induction
import Mathlib.Data.List.Nodup
import TokenHighlight.Listener.List

/-!
# Registrations that stand

Who is called by a notification is a question about the past: every listener that was registered and
whose registration was not ended since, in the order of registration. `standing` reads that off a
history, and asks of each registration what came later. A list of listeners answers it without a
history, by keeping entries and taking one out when a registration ends.

The two agree as long as no name is given twice. A name that is given again would make it unclear
which of its registrations an ending is about; the list takes the older one.

## Main definitions

* `Listeners.Change`, `Listeners.changed` — what can be done to a list of listeners, and what comes
  of a history of it
* `Listeners.standing` — the registrations that stand at the end of a history

## Main results

* `Listeners.entries_changed` — the entries are the registrations that stand
-/

namespace TokenHighlight

namespace Listeners

/-- What can be done to a list of listeners: registering one under a name, and ending the
registration with a name, which may be one that was never given. -/
inductive Change (ι α : Type)
  | subscribe (id : ι) (listener : α)
  | unsubscribe (id : ι)
deriving DecidableEq, Repr

variable {ι α : Type}

/-- The name that is given to a new registration. -/
def Change.given? : Change ι α → Option ι
  | subscribe id _ => some id
  | unsubscribe _ => none

/-- The names that are given in a history. -/
def names (history : List (Change ι α)) : List ι :=
  history.filterMap Change.given?

variable [DecidableEq ι]

/-- Whether the registration with a name is ended. -/
def Change.ends (id : ι) : Change ι α → Bool
  | subscribe _ _ => false
  | unsubscribe other => other = id

/-- The listeners behind a change. -/
def change (ls : Listeners ι α) : Change ι α → Listeners ι α
  | .subscribe id listener => ls.subscribe id listener
  | .unsubscribe id => (ls.unsubscribe id).2

/-- The listeners behind a history that begins with nobody registered. -/
def changed (history : List (Change ι α)) : Listeners ι α :=
  history.foldl change empty

/-- The registrations that stand at the end of a history: those that were not ended later, in the
order in which they were made. -/
def standing : List (Change ι α) → List (ι × α)
  | [] => []
  | .subscribe id listener :: later =>
    if later.any (Change.ends id) then standing later else (id, listener) :: standing later
  | .unsubscribe _ :: later => standing later

/-! ### One more change -/

theorem changed_append_singleton (history : List (Change ι α)) (c : Change ι α) :
    changed (history ++ [c]) = (changed history).change c := by
  rw [changed, List.foldl_append]
  rfl

theorem standing_append_subscribe (history : List (Change ι α)) (id : ι) (listener : α) :
    standing (history ++ [.subscribe id listener]) = standing history ++ [(id, listener)] := by
  induction history with
  | nil => rfl
  | cons c history ih =>
    cases c with
    | unsubscribe other => exact ih
    | subscribe other l =>
      have hends : (Change.subscribe id listener).ends other = false := rfl
      rw [List.cons_append, standing, standing, ih, List.any_append]
      cases hany : history.any (Change.ends other) <;> simp [hends]

theorem standing_append_unsubscribe (history : List (Change ι α)) (id : ι) :
    standing (history ++ [.unsubscribe id]) =
      (standing history).filter fun e => !decide (e.1 = id) := by
  induction history with
  | nil => rfl
  | cons c history ih =>
    cases c with
    | unsubscribe other => exact ih
    | subscribe other l =>
      rw [List.cons_append, standing, standing, ih, List.any_append]
      cases hany : history.any (Change.ends other) with
      | true => simp
      | false =>
        by_cases hid : id = other
        · simp [Change.ends, hid]
        · simp [Change.ends, hid, Ne.symm hid]

/-- Of entries with different names, taking out the first one with a name leaves all with another
name. -/
theorem eraseP_eq_filter {entries : List (ι × α)} (h : (entries.map (·.1)).Nodup) (id : ι) :
    (entries.eraseP fun e => e.1 = id) = entries.filter fun e => !decide (e.1 = id) := by
  induction entries with
  | nil => rfl
  | cons e entries ih =>
    obtain ⟨hfresh, hrest⟩ := List.nodup_cons.1 h
    by_cases hid : e.1 = id
    · have hkeep : ∀ x ∈ entries, (!decide (x.1 = id)) = true := fun x hx => by
        simpa using fun hxid : x.1 = id => hfresh (List.mem_map.2 ⟨x, hx, hxid.trans hid.symm⟩)
      simp [hid, List.filter_eq_self.2 hkeep]
    · simp [hid, ih hrest]

/-! ### Whole histories -/

theorem sublist_names (history : List (Change ι α)) :
    ((standing history).map (·.1)).Sublist (names history) := by
  induction history with
  | nil => exact List.Sublist.refl _
  | cons c history ih =>
    cases c with
    | unsubscribe other => exact ih
    | subscribe other l =>
      rw [standing]
      split
      · exact ih.cons other
      · exact ih.cons_cons other

/-- **The list keeps just the registrations that stand**, provided that no name is given twice. -/
theorem entries_changed {history : List (Change ι α)} (h : (names history).Nodup) :
    (changed history).entries = standing history := by
  induction history using List.reverseRecOn with
  | nil => rfl
  | append_singleton history c ih =>
    have hbefore : (names history).Nodup := by
      rw [names, List.filterMap_append] at h
      exact h.of_append_left
    rw [changed_append_singleton]
    cases c with
    | subscribe id listener =>
      rw [standing_append_subscribe, ← ih hbefore]
      rfl
    | unsubscribe id =>
      have hnodup : ((standing history).map (·.1)).Nodup := hbefore.sublist (sublist_names history)
      rw [standing_append_unsubscribe, ← eraseP_eq_filter hnodup, ← ih hbefore]
      rfl

end Listeners

end TokenHighlight
