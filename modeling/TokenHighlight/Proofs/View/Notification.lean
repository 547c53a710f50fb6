import TokenHighlight.Proofs.Listener.Registration
import TokenHighlight.Proofs.Tree.Display
import TokenHighlight.View

/-!
# Who hears of what

An operation notifies once, whatever it is made of: selecting a token clears, marks, looks for a
range and for a partner, and still is one thing that happened. Listeners therefore hear of
operations and not of tokens. What else happens to a view is heard by nobody: registrations,
questions, and edits of the tree that go past the view.

Whom a notification reaches is settled by the history of registrations alone. Operations leave
listeners as they are, so the listeners of a view are those of the history, and `Listeners.standing`
says which ones these are.

## Main definitions

* `View.Event`, `View.happen`, `View.run` — what can happen to a view
* `View.Event.isHeard` — whether an event is heard of

## Main results

* `View.called_perform` — an operation calls every listener of the view, or none
* `View.listeners_run` — the listeners behind a run are those of its registrations
* `View.heard_once` — the whole contract of notifications
-/

namespace TokenHighlight

namespace View

/-! ### Events -/

/-- What can happen to a view. -/
inductive Event (ι α : Type) : Type 1
  /-- A registration, or the end of one. -/
  | change (c : Listeners.Change ι α)
  /-- A question, which is anything that can be read off a view. -/
  | ask {β : Type} (question : View ι α → β)
  | operate (op : Operation)
  /-- An edit of the tree that goes past the view. -/
  | edit (e : Tree.Edit)
  | replaceTree (tree : Tree)

variable {ι α : Type}

/-- What an event does to registrations. -/
def Event.change? : Event ι α → Option (Listeners.Change ι α)
  | change c => some c
  | _ => none

/-- The registrations of a run, and the ends of them. -/
def changes (events : List (Event ι α)) : List (Listeners.Change ι α) :=
  events.filterMap Event.change?

/-- Whether a reply names a partner. -/
def hasPartner : Reply → Bool
  | .partner (some _) => true
  | _ => false

/-- Whether listeners are to hear of an event: of every operation, but of asking for a range only if
the number names a token with a bracket, and of asking for a partner only if the reply names one. -/
def Event.isHeard (v : View ι α) : Event ι α → Bool
  | operate (.highlightBracket id _) => (v.tree.bracket? id).isSome
  | operate (.highlightBrace id c lookup) =>
    hasPartner (v.perform (.highlightBrace id c lookup)).reply
  | operate _ => true
  | _ => false

variable [DecidableEq ι]

/-- The view behind an event, and the listeners that the event calls. -/
def happen (v : View ι α) : Event ι α → View ι α × List α
  | .change c => ({ v with listeners := v.listeners.change c }, [])
  | .ask _ => (v, [])
  | .operate op => ((v.perform op).view, (v.perform op).called)
  | .edit e => (v.setTree (v.tree.edit e), [])
  | .replaceTree tree => (v.setTree tree, [])

/-- The view behind a list of events. -/
def run (v : View ι α) (events : List (Event ι α)) : View ι α :=
  events.foldl (fun v e => (v.happen e).1) v

/-! ### One event -/

omit [DecidableEq ι] in
theorem called_notify_quietly (v : View ι α) (op : Operation) :
    (v.quietly op).notify.called = v.listeners.called := by
  rw [Outcome.notify, quietly, List.nil_append]

omit [DecidableEq ι] in
/-- **An operation that is heard of calls every listener once**, and any other calls none. -/
theorem called_perform (v : View ι α) (op : Operation) :
    (v.perform op).called = if (Event.operate op).isHeard v then v.listeners.called else [] := by
  cases op with
  | highlightBracket id c =>
    cases hb : v.tree.bracket? id with
    | none => simp [Event.isHeard, perform, hb]
    | some b => simp [Event.isHeard, perform, hb, called_notify_quietly]
  | highlightBrace id c lookup =>
    rw [Event.isHeard, perform_reply]
    cases hp : v.highlights.bracePartner? lookup id with
    | none => simp [perform, quietly, Operation.run, Highlights.highlightBrace, hp, hasPartner]
    | some p =>
      simp [perform, quietly, Operation.run, Highlights.highlightBrace, hp, hasPartner,
        Outcome.notify]
  | _ => exact called_notify_quietly v _

theorem called_happen (v : View ι α) (e : Event ι α) :
    (v.happen e).2 = if e.isHeard v then v.listeners.called else [] := by
  cases e with
  | operate op => exact v.called_perform op
  | _ => rfl

theorem listeners_happen (v : View ι α) (e : Event ι α) :
    (v.happen e).1.listeners = e.change?.elim v.listeners v.listeners.change := by
  cases e with
  | operate op =>
    show (v.perform op).view.listeners = v.listeners
    rw [perform_view]
  | _ => rfl

/-! ### Runs -/

/-- **Listeners come from registrations alone**, whatever else happens in between. -/
theorem listeners_run (v : View ι α) (events : List (Event ι α)) :
    (v.run events).listeners = (changes events).foldl Listeners.change v.listeners := by
  induction events generalizing v with
  | nil => rfl
  | cons e events ih =>
    rw [run, List.foldl_cons, ← run, ih, listeners_happen, changes, changes, List.filterMap_cons]
    cases e.change? <;> rfl

/-- **Listeners hear of every operation once, and of nothing else.** In a run from a view without
listeners, in which no name is given twice, whatever happens next either calls each listener whose
registration stands, once for each of its registrations and in the order in which these were made,
or calls nobody. -/
theorem heard_once (tree : Tree) (palette : Palette) {events : List (Event ι α)}
    (h : (Listeners.names (changes events)).Nodup) (e : Event ι α) :
    let v := (start tree palette).run events
    (v.happen e).2 =
      if e.isHeard v then (Listeners.standing (changes events)).map (·.2) else [] := by
  intro v
  have hlisteners : v.listeners = Listeners.changed (changes events) :=
    listeners_run (start tree palette) events
  rw [called_happen, hlisteners, Listeners.called, Listeners.entries_changed h]

/-- Of two registrations of one listener the older has ended, and an ending had come too early. In
between an operation, a question and an edit. The partner of the brace is announced, the range of a
name is not. -/
theorem heard_once_sample :
    let events : List (Event Nat String) :=
      [.change (.unsubscribe 2), .change (.subscribe 1 "repaint"), .operate .clearAll,
        .change (.subscribe 2 "log"), .change (.subscribe 3 "repaint"), .ask (·.highlights.count),
        .change (.unsubscribe 1), .edit (.add (.group 0))]
    let v := (start Tree.sample .default).run events
    (v.happen (.operate (.select 3 .byText))).2 = ["log", "repaint"] ∧
      (v.happen (.operate (.highlightBrace 7 (.rgb 200 0 0) .byText))).2 = ["log", "repaint"] ∧
      (v.happen (.operate (.highlightBracket 1 (.rgb 200 0 0)))).2 = [] := by
  intro events v
  have hnames : (Listeners.names (changes events)).Nodup := by decide
  have hpartner : Event.isHeard v (.operate (.highlightBrace 7 (.rgb 200 0 0) .byText)) = true := by
    decide +kernel
  have hrange : Event.isHeard v (.operate (.highlightBracket 1 (.rgb 200 0 0))) = false := by
    decide +kernel
  refine ⟨heard_once Tree.sample .default hnames (.operate (.select 3 .byText)), ?_, ?_⟩
  · exact (heard_once Tree.sample .default hnames _).trans (if_pos hpartner)
  · exact (heard_once Tree.sample .default hnames _).trans (if_neg (by rw [hrange]; decide))

end View

end TokenHighlight
