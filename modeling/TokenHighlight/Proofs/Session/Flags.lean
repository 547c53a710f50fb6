import TokenHighlight.Proofs.History
import TokenHighlight.Proofs.View.Notification
import TokenHighlight.Session

/-!
# Flags

A display that is asked to paint now and then needs to know one thing of the past: whether there was
anything to be seen since it painted last. It attaches a flag, which is a listener, and takes it
down whenever it paints. What the flag then says can be told from the steps of the session: it is up
just if an operation was heard of since the flag was attached and since it was taken last.

That a flag hears of every such operation rests on its registration, which nobody can end: steps end
registrations by the number of a subscription, and flags have names of their own. It is lost only
with the view, and so is the flag.

## Main definitions

* `Session.after`, `Session.Step.isHeard`, `Session.raised` — steps and flags
* `Session.HasFlag` — a flag that is attached
* `Session.Alike` — two sessions that differ in which flags are up

## Main results

* `Session.raised_step` — what a step does to a flag
* `Session.raised_after_iff` — what a flag says, as a question about the past
* `Session.raised_after_takeFlag` — taking a flag does not touch the others
-/

namespace TokenHighlight

namespace Session

/-- The session behind a list of steps. -/
def after (s : Session) (steps : List Step) : Session :=
  steps.foldl (fun s step => (s.step step).session) s

theorem after_append (s : Session) (steps more : List Step) :
    s.after (steps ++ more) = (s.after steps).after more :=
  List.foldl_append

/-- Whether listeners are to hear of a step, which then is an operation. -/
def Step.isHeard (s : Session) : Step → Bool
  | operate op => View.Event.isHeard s.view (.operate op)
  | _ => false

/-- Whether a step puts a fresh view in the place of the view. -/
def Step.renews : Step → Bool
  | renewView _ => true
  | _ => false

/-- Whether a flag is up. -/
def raised (s : Session) (n : Nat) : Bool :=
  s.flags.getD n false

/-- Whether a flag is there and hears of what listeners are to hear of. -/
def hears (s : Session) (n : Nat) : Bool :=
  n < s.flags.length && s.view.listeners.called.contains (.flag n)

/-- Whether a flag is down behind a step, whatever was heard of. -/
def Step.lowers (n : Nat) : Step → Bool
  | takeFlag k => k = n
  | renewView _ => true
  | _ => false

variable {s s' : Session} {e : Step} {m n : Nat}

/-! ### One step -/

theorem raised_of_length_le (h : s.flags.length ≤ n) : s.raised n = false := by
  rw [raised, List.getD_eq_getElem?_getD, List.getElem?_eq_none h]
  rfl

theorem getElem?_flags_hear (s : Session) (l : Listener) (n : Nat) :
    (s.hear l).flags[n]? = s.flags[n]?.map (· || decide (l = .flag n)) := by
  cases l with
  | flag k =>
    by_cases hk : k = n
    · subst hk
      rw [hear, List.getElem?_set_self']
      cases s.flags[k]? <;> simp
    · rw [hear, List.getElem?_set_ne hk]
      simp [hk]
  | _ => simp [hear]

/-- A flag that is called is up. -/
theorem getElem?_flags_foldl_hear (called : List Listener) (s : Session) (n : Nat) :
    (called.foldl hear s).flags[n]? = s.flags[n]?.map (· || called.contains (.flag n)) := by
  induction called generalizing s with
  | nil => simp
  | cons l called ih =>
    rw [List.foldl_cons, ih, getElem?_flags_hear, Option.map_map]
    congr 1
    funext up
    simp [Bool.or_assoc, eq_comm]

/-- Hearing of something changes neither the view nor how many flags there are. -/
theorem foldl_hear_frame (called : List Listener) (s : Session) :
    (called.foldl hear s).view = s.view ∧
      (called.foldl hear s).flags.length = s.flags.length := by
  induction called generalizing s with
  | nil => exact ⟨rfl, rfl⟩
  | cons l called ih =>
    obtain ⟨hview, hlength⟩ := ih (s.hear l)
    rw [List.foldl_cons, hview, hlength]
    cases l <;> simp [hear]

theorem raised_operate (s : Session) (op : Operation) (n : Nat) :
    (s.operate op).session.raised n =
      (s.raised n || (Step.operate op).isHeard s && s.hears n) := by
  rw [raised, List.getD_eq_getElem?_getD, operate, getElem?_flags_foldl_hear, View.called_perform,
    Step.isHeard, raised, List.getD_eq_getElem?_getD, hears]
  cases hn : s.flags[n]? with
  | none => simp [Nat.not_lt.2 (List.getElem?_eq_none_iff.1 hn)]
  | some up =>
    obtain ⟨hlt, _⟩ := List.getElem?_eq_some_iff.1 hn
    cases View.Event.isHeard s.view (.operate op) <;> simp [hlt]

theorem raised_grow (s : Session) (r : Except TreeError (NodeId × Tree)) (n : Nat) :
    (s.grow r).session.raised n = s.raised n := by
  cases r <;> rfl

theorem raised_withHub (s : Session) (r : Option (Answer × Broadcast.Hub)) (n : Nat) :
    (s.withHub r).session.raised n = s.raised n := by
  cases r <;> rfl

/-- **What a step does to a flag.** It is raised by what is heard of, if it hears of that, and by
nothing else. It is lowered by being taken, and with the view. -/
theorem raised_step (s : Session) (e : Step) (n : Nat) :
    (s.step e).session.raised n =
      (!e.lowers n && (s.raised n || e.isHeard s && s.hears n)) := by
  have hquiet : ∀ up : Bool, (!false && (up || false && s.hears n)) = up := by simp
  cases e with
  | operate op => exact s.raised_operate op n
  | addGroup parent => exact (s.raised_grow _ n).trans (hquiet _).symm
  | addToken parent data => exact (s.raised_grow _ n).trans (hquiet _).symm
  | renewView palette => rfl
  | attachFlag =>
    refine Eq.trans ?_ (hquiet _).symm
    simp only [Session.step, raised, List.getD_eq_getElem?_getD, List.getElem?_append]
    split
    · rfl
    · next hlt =>
      rw [List.getElem?_eq_none (Nat.le_of_not_lt hlt)]
      cases n - s.flags.length <;> rfl
  | takeFlag k =>
    by_cases hk : k = n
    · subst hk
      simp only [Session.step, raised, List.getD_eq_getElem?_getD, List.getElem?_set_self',
        Step.lowers]
      cases s.flags[k]? <;> simp
    · simp [Session.step, raised, Step.lowers, Step.isHeard, List.getElem?_set_ne hk, hk]
  | createChannel name => exact (hquiet _).symm
  | attachSender name =>
    rw [Session.step]
    split <;> exact (hquiet _).symm
  | cloneSender | dropSender | addReceiver | fire | receive =>
    exact (s.raised_withHub _ n).trans (hquiet _).symm
  | _ => exact (hquiet _).symm

/-! ### Attached flags -/

/-- A flag is there, and is registered in the view under its own name. -/
structure HasFlag (s : Session) (n : Nat) : Prop where
  lt_length : n < s.flags.length
  mem_entries : (.flag n, .flag n) ∈ s.view.listeners.entries

theorem hasFlag_attachFlag (s : Session) :
    (s.step .attachFlag).session.HasFlag s.flags.length where
  lt_length := by simp [Session.step]
  mem_entries := by simp [Session.step, Listeners.subscribe]

theorem raised_attachFlag (s : Session) :
    (s.step .attachFlag).session.raised s.flags.length = false := by
  rw [raised_step, raised_of_length_le (Nat.le_refl _)]
  rfl

namespace HasFlag

theorem hears (h : s.HasFlag n) : s.hears n = true := by
  have hcalled : .flag n ∈ s.view.listeners.called :=
    List.mem_map.2 ⟨_, h.mem_entries, rfl⟩
  simp [Session.hears, h.lt_length, hcalled]

theorem grow (h : s.HasFlag n) (r : Except TreeError (NodeId × Tree)) :
    (s.grow r).session.HasFlag n := by
  cases r <;> exact ⟨h.lt_length, h.mem_entries⟩

theorem withHub (h : s.HasFlag n) (r : Option (Answer × Broadcast.Hub)) :
    (s.withHub r).session.HasFlag n := by
  cases r <;> exact ⟨h.lt_length, h.mem_entries⟩

/-- A flag stays attached as long as the view is not replaced. -/
theorem step (h : s.HasFlag n) (hview : e.renews = false) : (s.step e).session.HasFlag n := by
  cases e with
  | operate op =>
    obtain ⟨hsame, hlength⟩ :=
      foldl_hear_frame (s.view.perform op).called { s with view := (s.view.perform op).view }
    refine ⟨hlength ▸ h.lt_length, ?_⟩
    rw [Session.step, operate, hsame, View.perform_view]
    exact h.mem_entries
  | addGroup parent => exact h.grow _
  | addToken parent data => exact h.grow _
  | renewView palette => cases hview
  | subscribe name => exact ⟨h.lt_length, List.mem_append_left _ h.mem_entries⟩
  | unsubscribe k =>
    refine ⟨h.lt_length, (List.mem_eraseP_of_neg ?_).2 h.mem_entries⟩
    simp
  | attachFlag =>
    refine ⟨?_, List.mem_append_left _ h.mem_entries⟩
    exact Nat.lt_of_lt_of_le h.lt_length (by simp [Session.step])
  | takeFlag k => exact ⟨by simpa [Session.step] using h.lt_length, h.mem_entries⟩
  | attachSender name =>
    rw [Session.step]
    split
    · exact ⟨h.lt_length, List.mem_append_left _ h.mem_entries⟩
    · exact h
  | cloneSender | dropSender | addReceiver | fire | receive => exact h.withHub _
  | _ => exact ⟨h.lt_length, h.mem_entries⟩

theorem raised_step_iff (h : s.HasFlag n) (hview : e.renews = false) :
    (s.step e).session.raised n = true ↔
      e.isHeard s = true ∨ ¬e = .takeFlag n ∧ s.raised n = true := by
  rw [raised_step, h.hears]
  cases e with
  | takeFlag k => simp [Step.lowers, Step.isHeard]
  | renewView palette => cases hview
  | operate op => simp [Step.lowers, or_comm]
  | _ => simp [Step.lowers, Step.isHeard]

end HasFlag

/-- **What a flag says.** It is up if something was heard of since it was attached and since it was
taken last. -/
theorem raised_after_iff (s : Session) {steps : List Step}
    (hview : ∀ e ∈ steps, e.renews = false) :
    let t := (s.step .attachFlag).session
    (t.after steps).HasFlag s.flags.length ∧
      ((t.after steps).raised s.flags.length = true ↔
        Since (fun early e => e.isHeard (t.after early) = true) (· = .takeFlag s.flags.length)
          steps) := by
  intro t
  induction steps using List.reverseRecOn with
  | nil =>
    refine ⟨s.hasFlag_attachFlag, iff_of_false ?_ not_since_nil⟩
    exact Bool.eq_false_iff.1 s.raised_attachFlag
  | append_singleton steps e ih =>
    obtain ⟨hsteps, he⟩ := List.forall_mem_append.1 hview
    have hlast : e.renews = false := he e List.mem_cons_self
    obtain ⟨hflag, hraised⟩ := ih hsteps
    have hone : t.after (steps ++ [e]) = ((t.after steps).step e).session :=
      t.after_append steps [e]
    rw [since_append_singleton_iff, ← hraised, hone]
    exact ⟨hflag.step hlast, hflag.raised_step_iff hlast⟩

/-! ### Taking one of several flags -/

/-- Two sessions that differ at most in which flags are up. -/
structure Alike (s s' : Session) : Prop where
  view : s'.view = s.view
  subscriptions : s'.subscriptions = s.subscriptions
  hub : s'.hub = s.hub
  length_flags : s'.flags.length = s.flags.length

namespace Alike

theorem takeFlag (s : Session) (m : Nat) : Alike s (s.step (.takeFlag m)).session :=
  ⟨rfl, rfl, rfl, List.length_set⟩

theorem hear (h : Alike s s') (l : Listener) : Alike (s.hear l) (s'.hear l) := by
  cases l with
  | logger name => exact h
  | flag k => exact { h with length_flags := by simp [Session.hear, h.length_flags] }
  | channel k => exact { h with hub := congrArg (·.send k 1) h.hub }

theorem foldl_hear (h : Alike s s') (called : List Listener) :
    Alike (called.foldl Session.hear s) (called.foldl Session.hear s') := by
  induction called generalizing s s' with
  | nil => exact h
  | cons l called ih => exact ih (h.hear l)

theorem grow (h : Alike s s') (r : Except TreeError (NodeId × Tree)) :
    Alike (s.grow r).session (s'.grow r).session := by
  cases r with
  | ok r => exact { h with view := congrArg (·.setTree r.2) h.view }
  | error e => exact h

theorem withHub (h : Alike s s') (r : Option (Answer × Broadcast.Hub)) :
    Alike (s.withHub r).session (s'.withHub r).session := by
  cases r with
  | some r => exact { h with hub := rfl }
  | none => exact h

/-- What a step does beside flags does not depend on which flags are up. -/
theorem step (h : Alike s s') (e : Step) : Alike (s.step e).session (s'.step e).session := by
  obtain ⟨v, subscriptions, flags, hub⟩ := s
  obtain ⟨v', subscriptions', flags', hub'⟩ := s'
  obtain ⟨rfl, rfl, rfl, hlength⟩ := h
  have hsame : ∀ v subscriptions hub,
      Alike ⟨v, subscriptions, flags, hub⟩ ⟨v, subscriptions, flags', hub⟩ :=
    fun _ _ _ => ⟨rfl, rfl, rfl, hlength⟩
  cases e with
  | operate op => exact (hsame _ _ _).foldl_hear _
  | addGroup parent => exact (hsame _ _ _).grow _
  | addToken parent data => exact (hsame _ _ _).grow _
  | renewView palette => exact ⟨rfl, rfl, rfl, rfl⟩
  | attachFlag =>
    simp only at hlength
    simp only [Session.step, hlength]
    exact ⟨rfl, rfl, rfl, by simp [hlength]⟩
  | takeFlag k => exact ⟨rfl, rfl, rfl, by simpa [Session.step] using hlength⟩
  | attachSender name =>
    rw [Session.step, Session.step]
    cases Broadcast.Hub.channelOf? hub' name <;> exact hsame _ _ _
  | cloneSender | dropSender | addReceiver | fire | receive => exact (hsame _ _ _).withHub _
  | _ => exact hsame _ _ _

theorem isHeard_eq (h : Alike s s') (e : Step) : e.isHeard s' = e.isHeard s := by
  cases e with
  | operate op => rw [Step.isHeard, Step.isHeard, h.view]
  | _ => rfl

theorem hears_eq (h : Alike s s') (n : Nat) : s'.hears n = s.hears n := by
  rw [hears, hears, h.view, h.length_flags]

/-- A flag that both sessions show alike is shown alike ever after. -/
theorem raised_after (h : Alike s s') (hn : s'.raised n = s.raised n) (steps : List Step) :
    (s'.after steps).raised n = (s.after steps).raised n := by
  induction steps generalizing s s' with
  | nil => exact hn
  | cons e steps ih =>
    refine ih (h.step e) ?_
    rw [raised_step, raised_step, hn, h.isHeard_eq, h.hears_eq]

end Alike

/-- **Taking a flag does not touch the others**, then or later. -/
theorem raised_after_takeFlag (s : Session) (hne : m ≠ n) (steps : List Step) :
    (s.after (.takeFlag m :: steps)).raised n = (s.after steps).raised n := by
  refine (Alike.takeFlag s m).raised_after ?_ steps
  rw [raised_step]
  simp [Step.lowers, Step.isHeard, hne]

end Session

end TokenHighlight
