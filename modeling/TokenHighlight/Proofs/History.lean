import Mathlib.Data.List.Induction

/-!
# Since

What is the case at some moment is often the case because something happened and nothing has undone
it since: a registration stands since it was made, a flag is up since something was to be seen. A
history is the list of events up to the moment, and `Since` is what such a history has to contain.

It is read from the end. The last event makes it true, or undoes it, or leaves it as it was before.

## Main definitions

* `Since`

## Main results

* `since_append_singleton_iff` — the last event
* `since_filterMap_iff` — a history in which only some events count
-/

namespace TokenHighlight

variable {ε η : Type*}

/-- Something happened in a history, and nothing has undone it since. Whether an event is what is
meant to have happened may depend on the events before it. -/
def Since (happens : List ε → ε → Prop) (undoes : ε → Prop) (history : List ε) : Prop :=
  ∃ before e later, history = before ++ e :: later ∧ happens before e ∧ ∀ x ∈ later, ¬undoes x

variable {happens happens' : List ε → ε → Prop} {undoes undoes' : ε → Prop}

theorem not_since_nil : ¬Since happens undoes [] := by
  rintro ⟨before, e, later, h, _⟩
  cases before <;> cases h

theorem since_append_singleton_iff {history : List ε} {e : ε} :
    Since happens undoes (history ++ [e]) ↔
      happens history e ∨ ¬undoes e ∧ Since happens undoes history := by
  constructor
  · rintro ⟨before, x, later, h, hx, hlater⟩
    cases later using List.reverseRecOn with
    | nil =>
      obtain ⟨rfl, hsame⟩ := List.append_inj' h rfl
      exact .inl (List.singleton_inj.1 hsame ▸ hx)
    | append_singleton later last =>
      rw [← List.cons_append, ← List.append_assoc] at h
      obtain ⟨hbefore, hsame⟩ := List.append_inj' h rfl
      obtain ⟨hrest, hlast⟩ := List.forall_mem_append.1 hlater
      rw [List.singleton_inj.1 hsame]
      exact .inr ⟨hlast last List.mem_cons_self, before, x, later, hbefore, hx, hrest⟩
  · rintro (h | ⟨he, before, x, later, rfl, hx, hlater⟩)
    · exact ⟨history, e, [], rfl, h, List.forall_mem_nil _⟩
    · refine ⟨before, x, later ++ [e], by simp, hx, List.forall_mem_append.2 ⟨hlater, ?_⟩⟩
      exact List.forall_mem_singleton.2 he

theorem since_congr (hhappens : ∀ before e, happens before e ↔ happens' before e)
    (hundoes : ∀ e, undoes e ↔ undoes' e) (history : List ε) :
    Since happens undoes history ↔ Since happens' undoes' history := by
  simp only [Since, hhappens, hundoes]

/-- What happened may be one of several things. -/
theorem exists_since_iff {α : Type*} {happens : α → List ε → ε → Prop} {history : List ε} :
    (∃ a, Since (happens a) undoes history) ↔
      Since (fun before e => ∃ a, happens a before e) undoes history := by
  constructor
  · rintro ⟨a, before, e, later, hhistory, he, hlater⟩
    exact ⟨before, e, later, hhistory, ⟨a, he⟩, hlater⟩
  · rintro ⟨before, e, later, hhistory, ⟨a, he⟩, hlater⟩
    exact ⟨a, before, e, later, hhistory, he, hlater⟩

/-- If only some events count, the others can be left out of the history. -/
theorem since_filterMap_iff (f : η → Option ε) (history : List η) :
    Since happens undoes (history.filterMap f) ↔
      Since (fun before x => ∃ e, f x = some e ∧ happens (before.filterMap f) e)
        (fun x => ∃ e, f x = some e ∧ undoes e) history := by
  induction history using List.reverseRecOn with
  | nil => exact iff_of_false not_since_nil not_since_nil
  | append_singleton history x ih =>
    rw [since_append_singleton_iff, ← ih, List.filterMap_append]
    cases hx : f x with
    | none => simp [hx]
    | some e =>
      have hone : [x].filterMap f = [e] := by simp [hx]
      rw [hone, since_append_singleton_iff]
      simp

end TokenHighlight
