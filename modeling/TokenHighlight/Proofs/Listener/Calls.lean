import TokenHighlight.Proofs.History
import TokenHighlight.Proofs.Listener.Registration

/-!
# What a list of listeners answers

A list of listeners is told of registrations and of the ends of registrations, and it answers three
questions: whether there was a registration to be ended, whom a notification calls, and how many
registrations there are. All answers are about the past. They are given here in terms of the calls
that came before, and of nothing that the list keeps.

A name that is told to the list may come from anywhere: it may have been given by this list or by
another, before or later, and its registration may have been ended. So ending is asked of every name
and not only of those that stand.

## Main definitions

* `Listeners.Call`, `Listeners.perform` — what can be asked of a list of listeners
* `Listeners.after` — the list behind several calls

## Main results

* `Listeners.mem_standing_iff` — a registration stands if it was made and not ended since
* `Listeners.exists_unsubscribe` — what ending a registration leaves
* `Listeners.answers_from_calls` — the whole contract of a list of listeners
-/

namespace TokenHighlight

namespace Listeners

/-- What can be asked of a list of listeners. -/
inductive Call (ι α : Type)
  /-- A registration, or the end of one. -/
  | change (c : Change ι α)
  | notify
deriving DecidableEq, Repr

variable {ι α : Type}

/-- What a call changes, if it is not a notification. -/
def Call.change? : Call ι α → Option (Change ι α)
  | change c => some c
  | notify => none

/-- The registrations among some calls, and the ends of them. -/
def changes (calls : List (Call ι α)) : List (Change ι α) :=
  calls.filterMap Call.change?

variable [DecidableEq ι]

/-- The list behind a call, and the listeners that are called. -/
def perform (ls : Listeners ι α) : Call ι α → Listeners ι α × List α
  | .change c => (ls.change c, [])
  | .notify => (ls, ls.called)

/-- The list behind several calls, the first of which finds nobody registered. -/
def after (calls : List (Call ι α)) : Listeners ι α :=
  calls.foldl (fun ls c => (ls.perform c).1) empty

/-! ### The past -/

omit [DecidableEq ι] in
theorem changes_append_singleton (calls : List (Call ι α)) (c : Call ι α) :
    changes (calls ++ [c]) = changes calls ++ c.change?.toList := by
  rw [changes, List.filterMap_append, ← changes, List.filterMap_cons]
  cases c <;> rfl

/-- Notifications change nothing. -/
theorem after_eq_changed (calls : List (Call ι α)) : after calls = changed (changes calls) := by
  induction calls using List.reverseRecOn with
  | nil => rfl
  | append_singleton calls c ih =>
    rw [after, List.foldl_append, List.foldl_cons, List.foldl_nil, ← after, ih,
      changes_append_singleton]
    cases c with
    | change c => exact (changed_append_singleton _ c).symm
    | notify => exact congrArg changed (List.append_nil _).symm

/-- **A registration stands if it was made and not ended since.** -/
theorem mem_standing_iff {history : List (Change ι α)} {id : ι} {listener : α} :
    (id, listener) ∈ standing history ↔
      Since (fun _ c => c = .subscribe id listener) (· = .unsubscribe id) history := by
  induction history using List.reverseRecOn with
  | nil => exact iff_of_false List.not_mem_nil not_since_nil
  | append_singleton history c ih =>
    rw [since_append_singleton_iff, ← ih]
    cases c with
    | subscribe other l =>
      rw [standing_append_subscribe, List.mem_append, List.mem_singleton]
      constructor
      · rintro (hmem | hnew)
        · exact .inr ⟨nofun, hmem⟩
        · cases hnew
          exact .inl rfl
      · rintro (hnew | ⟨_, hmem⟩)
        · cases hnew
          exact .inr rfl
        · exact .inl hmem
    | unsubscribe other =>
      rw [standing_append_unsubscribe, List.mem_filter]
      constructor
      · rintro ⟨hmem, hid⟩
        exact .inr ⟨fun heq => by cases heq; simp at hid, hmem⟩
      · rintro (hnew | ⟨hne, hmem⟩)
        · cases hnew
        · exact ⟨hmem, by simpa using fun heq : id = other => hne (heq ▸ rfl)⟩

theorem mem_standing_changes_iff {calls : List (Call ι α)} {id : ι} {listener : α} :
    (id, listener) ∈ standing (changes calls) ↔
      Since (fun _ c => c = .change (.subscribe id listener)) (· = .change (.unsubscribe id))
        calls := by
  rw [mem_standing_iff, changes, since_filterMap_iff]
  refine since_congr (fun _ c => ?_) (fun c => ?_) calls <;> cases c <;> simp [Call.change?]

/-! ### Ending a registration -/

theorem isSubscribed_iff {ls : Listeners ι α} {id : ι} :
    ls.isSubscribed id = true ↔ ∃ listener, (id, listener) ∈ ls.entries := by
  simp [isSubscribed]

/-- **Ending a registration takes out one entry**, which has its name, and leaves all others where
they are. -/
theorem exists_unsubscribe {ls : Listeners ι α} {id : ι} (h : ls.isSubscribed id = true) :
    ∃ older listener younger, ls.entries = older ++ (id, listener) :: younger ∧
      (ls.unsubscribe id).2.entries = older ++ younger := by
  obtain ⟨listener, hmem⟩ := isSubscribed_iff.1 h
  obtain ⟨⟨other, l⟩, older, younger, _, hid, hentries, hrest⟩ :=
    List.exists_of_eraseP (p := fun e => decide (e.1 = id)) hmem (decide_eq_true rfl)
  obtain rfl : other = id := of_decide_eq_true hid
  exact ⟨older, l, younger, hentries, hrest⟩

/-! ### The contract of a list of listeners -/

/-- **A list of listeners answers from the calls that came before**, provided that no name was given
twice. The registrations that stand are those that were made and not ended since, in the order in
which they were made. Ending one tells whether a registration with the name stands; if so it takes
out that one and leaves all others in their order, and else it changes nothing. A notification calls
the listeners of those that stand, once for each of them, and changes nothing. As many are counted
as stand. -/
theorem answers_from_calls {calls : List (Call ι α)} (h : (names (changes calls)).Nodup) :
    let ls := after calls
    let registrations := standing (changes calls)
    (∀ id listener, (id, listener) ∈ registrations ↔
      Since (fun _ c => c = .change (.subscribe id listener)) (· = .change (.unsubscribe id))
        calls) ∧
    (registrations.map (·.1)).Sublist (names (changes calls)) ∧
    (∀ id, (ls.unsubscribe id).1 = true ↔
      Since (fun _ c => ∃ listener, c = .change (.subscribe id listener))
        (· = .change (.unsubscribe id)) calls) ∧
    (∀ id, (ls.unsubscribe id).1 = true → ∃ older listener younger,
      registrations = older ++ (id, listener) :: younger ∧
        (ls.unsubscribe id).2.entries = older ++ younger) ∧
    (∀ id, (ls.unsubscribe id).1 = false → (ls.unsubscribe id).2 = ls) ∧
    ls.perform .notify = (ls, registrations.map (·.2)) ∧
    ls.size = registrations.length ∧ ls.isEmpty = registrations.isEmpty := by
  intro ls registrations
  have hentries : ls.entries = registrations := by
    rw [show ls = changed (changes calls) from after_eq_changed calls, entries_changed h]
  refine ⟨fun _ _ => mem_standing_changes_iff, sublist_names _, fun id => ?_, fun id hid => ?_,
    fun id hid => ?_, ?_, ?_, ?_⟩
  · rw [← exists_since_iff]
    simp only [← mem_standing_changes_iff]
    show ls.isSubscribed id = true ↔ ∃ listener, (id, listener) ∈ registrations
    rw [isSubscribed_iff, hentries]
  · exact hentries ▸ exists_unsubscribe hid
  · rw [unsubscribe_of_not_isSubscribed hid]
  · rw [perform, called, hentries]
  · rw [size, hentries]
  · rw [isEmpty, hentries]

/-- One listener is registered three times, and its first registration ends. The name of the last
one was told before it was given, which ended nothing, and the first one is ended once more. -/
theorem answers_from_calls_sample :
    let calls : List (Call Nat String) :=
      [.change (.unsubscribe 4), .change (.subscribe 1 "repaint"), .change (.subscribe 2 "log"),
        .notify, .change (.subscribe 3 "repaint"), .change (.unsubscribe 1),
        .change (.subscribe 4 "repaint"), .change (.unsubscribe 1)]
    (names (changes calls)).Nodup ∧
      (after calls).perform .notify = (after calls, ["log", "repaint", "repaint"]) ∧
      (after calls).size = 3 ∧ ((after calls).unsubscribe 1).1 = false ∧
      ((after calls).unsubscribe 4).1 = true := by
  intro calls
  have hnames : (names (changes calls)).Nodup := by decide
  obtain ⟨_, _, hended, _, _, hnotify, hsize, _⟩ := answers_from_calls hnames
  refine ⟨hnames, hnotify, hsize, by decide, (hended 4).2 ?_⟩
  exact ⟨calls.take 6, .change (.subscribe 4 "repaint"), [.change (.unsubscribe 1)], rfl,
    ⟨"repaint", rfl⟩, List.forall_mem_singleton.2 nofun⟩

end Listeners

end TokenHighlight
