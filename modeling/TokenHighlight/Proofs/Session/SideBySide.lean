import TokenHighlight.Proofs.Session.Flags

/-!
# Sessions side by side

Where there are several views, each has its own listeners, and an operation calls those of its own
view. So several views are several sessions, and the steps of all of them in the order in which they
are taken leave each session as its own steps alone would. A flag is about the view that it was
attached to, and hears nothing of the others.

## Main definitions

* `Session.Event`, `Session.run` — what happens to several sessions
* `Session.asked?` — what a step would be answered

## Main results

* `Session.getElem?_foldl_happen` — a session has gone through its own steps
* `Session.flag_tells_of_changes` — the whole contract of flags
-/

namespace TokenHighlight

namespace Session

/-- What can happen where there are several sessions. They are named by their place. -/
inductive Event
  /-- A further session begins. -/
  | start (tree : Tree)
  | step (place : Nat) (step : Step)

/-- The sessions behind an event. -/
def happen (sessions : List Session) : Event → List Session
  | .start tree => sessions ++ [.start tree]
  | .step i e => sessions.modify i fun s => (s.step e).session

/-- The sessions behind a list of events. -/
def run (events : List Event) : List Session :=
  events.foldl happen []

/-- What a step in a session would be answered behind a list of events. -/
def asked? (events : List Event) (i : Nat) (e : Step) : Option Answer :=
  (run events)[i]?.map fun s => (s.step e).answer

/-- The step that an event is in a session. -/
def Event.step? (i : Nat) : Event → Option Step
  | .step j e => if j = i then some e else none
  | .start _ => none

/-- The steps of a session. -/
def stepsOf (i : Nat) (events : List Event) : List Step :=
  events.filterMap (Event.step? i)

variable {sessions : List Session} {s : Session} {i n : Nat}

theorem step?_eq_some_iff {x : Event} {e : Step} : x.step? i = some e ↔ x = .step i e := by
  cases x with
  | start tree => simp [Event.step?]
  | step j e' => by_cases hj : j = i <;> simp [Event.step?, hj]

theorem stepsOf_cons (i : Nat) (x : Event) (events : List Event) :
    stepsOf i (x :: events) = (x.step? i).toList ++ stepsOf i events := by
  rw [stepsOf, stepsOf, List.filterMap_cons]
  cases x.step? i <;> rfl

theorem stepsOf_append (i : Nat) (events more : List Event) :
    stepsOf i (events ++ more) = stepsOf i events ++ stepsOf i more :=
  List.filterMap_append

theorem getElem?_happen (hs : sessions[i]? = some s) (x : Event) :
    (happen sessions x)[i]? = some (s.after (x.step? i).toList) := by
  cases x with
  | start tree =>
    obtain ⟨hi, _⟩ := List.getElem?_eq_some_iff.1 hs
    exact (List.getElem?_append_left hi).trans hs
  | step j e =>
    rw [happen, List.getElem?_modify, hs]
    by_cases hj : j = i
    · simp [Event.step?, hj, after]
    · simp [Event.step?, hj, after]

/-- **A session has gone through its own steps**, whatever happened to the others in between. -/
theorem getElem?_foldl_happen (hs : sessions[i]? = some s) (events : List Event) :
    (events.foldl happen sessions)[i]? = some (s.after (stepsOf i events)) := by
  induction events generalizing sessions s with
  | nil => exact hs
  | cons x events ih =>
    rw [List.foldl_cons, ih (getElem?_happen hs x), ← after_append, stepsOf_cons]

theorem getElem?_run_append {before : List Event} (hs : (run before)[i]? = some s)
    (events : List Event) : (run (before ++ events))[i]? = some (s.after (stepsOf i events)) := by
  rw [run, List.foldl_append]
  exact getElem?_foldl_happen hs events

/-! ### Flags -/

theorem renews_eq_false_of_mem_stepsOf {events : List Event} {e : Step}
    (hview : ∀ palette, .step i (.renewView palette) ∉ events) (he : e ∈ stepsOf i events) :
    e.renews = false := by
  obtain ⟨x, hx, hxe⟩ := List.mem_filterMap.1 he
  cases e with
  | renewView palette => exact absurd (step?_eq_some_iff.1 hxe ▸ hx) (hview palette)
  | _ => rfl

/-- What happened in a session since some step of it can be told from all events. -/
theorem since_stepsOf_iff {happens : List Step → Step → Prop} {e : Step} (events : List Event) :
    Since happens (· = e) (stepsOf i events) ↔
      Since (fun early x => ∃ e, x = .step i e ∧ happens (stepsOf i early) e) (· = .step i e)
        events := by
  rw [stepsOf, since_filterMap_iff]
  simp only [step?_eq_some_iff]
  exact since_congr (fun _ _ => Iff.rfl) (fun x => by simp) events

/-- Taking a flag leaves what other flags say, in its own session and in others. -/
theorem raised_after_stepsOf (s : Session) (early late : List Event) {j m : Nat}
    (hne : (j, m) ≠ (i, n)) :
    (s.after (stepsOf i (early ++ .step j (.takeFlag m) :: late))).raised n =
      (s.after (stepsOf i (early ++ late))).raised n := by
  rw [stepsOf_append, stepsOf_append, stepsOf_cons, s.after_append (stepsOf i early),
    s.after_append (stepsOf i early)]
  by_cases hj : j = i
  · have hm : m ≠ n := fun h => hne (by rw [hj, h])
    rw [Event.step?, if_pos hj]
    exact raised_after_takeFlag _ hm _
  · rw [Event.step?, if_neg hj]
    rfl

/-- **A flag tells of the changes since it was taken last.** It is attached under the next number to
a view that is not replaced later, whatever else happens in any order. Then it is answered true just
if an operation on this view was heard of since the flag was attached and since it was taken last.
Taking other flags, of this view or of others, makes no difference to that. -/
theorem flag_tells_of_changes {before later : List Event} {i : Nat} {s : Session}
    (hs : (run before)[i]? = some s)
    (hview : ∀ palette, .step i (.renewView palette) ∉ later) :
    let n := s.flags.length
    let attached := before ++ [.step i .attachFlag]
    asked? before i .attachFlag = some (.number n) ∧
    (∃ up, asked? (attached ++ later) i (.takeFlag n) = some (.truth up) ∧
      (up = true ↔
        Since (fun early x => ∃ op t, x = .step i (.operate op) ∧
            (run (attached ++ early))[i]? = some t ∧
            View.Event.isHeard t.view (.operate op) = true)
          (· = .step i (.takeFlag n)) later)) ∧
    (∀ early late j m, later = early ++ late → (j, m) ≠ (i, n) →
      asked? (attached ++ (early ++ .step j (.takeFlag m) :: late)) i (.takeFlag n) =
        asked? (attached ++ later) i (.takeFlag n)) := by
  intro n attached
  set t := (s.step .attachFlag).session with ht
  have hattached : (run attached)[i]? = some t := by
    rw [getElem?_run_append hs]
    simp [stepsOf, Event.step?, after, ht]
  have hrun : ∀ events, (run (attached ++ events))[i]? = some (t.after (stepsOf i events)) :=
    getElem?_run_append hattached
  have hasked : ∀ events, asked? (attached ++ events) i (.takeFlag n) =
      some (.truth ((t.after (stepsOf i events)).raised n)) := fun events => by
    rw [asked?, hrun]
    rfl
  have hsteps : ∀ e ∈ stepsOf i later, e.renews = false := fun _ =>
    renews_eq_false_of_mem_stepsOf hview
  refine ⟨by rw [asked?, hs]; rfl, ⟨_, hasked later, ?_⟩, ?_⟩
  · rw [(s.raised_after_iff hsteps).2, since_stepsOf_iff]
    simp only [hrun]
    refine since_congr (fun early x => ⟨?_, ?_⟩) (fun _ => Iff.rfl) later
    · rintro ⟨e, rfl, he⟩
      cases e with
      | operate op => exact ⟨op, _, rfl, rfl, he⟩
      | _ => cases he
    · rintro ⟨op, _, rfl, hsame, he⟩
      cases hsame
      exact ⟨.operate op, rfl, he⟩
  · rintro early late j m rfl hne
    rw [hasked, hasked, raised_after_stepsOf t early late hne]

/-- The second flag of the first of two sessions. It was taken, and then the partner of a brace was
found. An operation on the other view, the range of a name and the first flag do not matter. -/
theorem flag_tells_of_changes_sample :
    let c : Color := .rgb 200 0 0
    let before : List Event := [.start Tree.sample, .start Tree.empty, .step 0 .attachFlag]
    let early : List Event :=
      [.step 0 (.operate .clearAll), .step 0 (.takeFlag 1), .step 1 (.operate .clearAll)]
    let late : List Event :=
      [.step 0 (.operate (.highlightBracket 1 c)), .step 0 (.takeFlag 0), .step 1 (.takeFlag 1)]
    let found : Event := .step 0 (.operate (.highlightBrace 7 c .byText))
    asked? before 0 .attachFlag = some (.number 1) ∧
      asked? (before ++ [.step 0 .attachFlag] ++ (early ++ found :: late)) 0 (.takeFlag 1) =
        some (.truth true) := by
  intro c before early late found
  have hs : (run before)[0]? = some ((start Tree.sample).after [.attachFlag]) := rfl
  have hview : ∀ palette, .step 0 (.renewView palette) ∉ early ++ found :: late := by
    simp [early, found, late]
  obtain ⟨hnumber, ⟨up, hasked, hup⟩, _⟩ := flag_tells_of_changes hs hview
  have hthen := getElem?_run_append hs (.step 0 .attachFlag :: early)
  rw [List.append_cons] at hthen
  have hlate : ∀ x ∈ late, ¬x = .step 0 (.takeFlag 1) := by simp [late]
  have hfound : up = true := hup.2
    ⟨early, found, late, rfl, ⟨_, _, rfl, hthen, by decide +kernel⟩, hlate⟩
  exact ⟨hnumber, hasked.trans (by rw [hfound])⟩

end Session

end TokenHighlight
