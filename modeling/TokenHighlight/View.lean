import TokenHighlight.Highlight.Operation
import TokenHighlight.Listener.List

/-!
# Views

A view joins the highlights of a tree with the listeners that hear of changes to them.

An operation notifies once, at its end, however many tokens it touches and even if it touches none.
Only two operations can end without: asking for the range of a token that carries no bracket, which
ends before anything is done, and asking for the partner of a brace that has none.

## Main definitions

* `View` — highlights and listeners
* `View.Outcome.notify` — calling every listener
* `View.perform` — an operation, with its reply and the listeners it calls

## Main statements

* `View.perform_view`, `View.perform_reply` — whoever is notified, the highlights change and the
  reply is given as `Operation.run` has it
-/

namespace TokenHighlight

/-- The highlights of a tree and whoever listens to changes of them. -/
structure View (ι α : Type) where
  highlights : Highlights
  listeners : Listeners ι α

/-- What comes of an operation: the view behind it, the reply, and the listeners that were called,
in the order of the calls. -/
structure View.Outcome (ι α : Type) where
  view : View ι α
  reply : Reply
  called : List α

namespace View

variable {ι α : Type}

/-- A view of a tree of which nothing is highlighted, with no listeners. -/
def start (tree : Tree) (palette : Palette) : View ι α :=
  ⟨.start tree palette, .empty⟩

/-- The tree that is viewed. -/
def tree (v : View ι α) : Tree :=
  v.highlights.tree

/-- Puts another tree in the place of the one that is viewed. The set of highlighted nodes stays as
it is. -/
def setTree (v : View ι α) (tree : Tree) : View ι α :=
  { v with highlights := { v.highlights with tree } }

/-- Carries out an operation without notifying anybody. -/
def quietly (v : View ι α) (op : Operation) : Outcome ι α :=
  let (highlights, reply) := op.run v.highlights
  { view := { v with highlights }, reply, called := [] }

/-- Calls every listener once, in the order of registration. -/
def Outcome.notify (o : Outcome ι α) : Outcome ι α :=
  { o with called := o.called ++ o.view.listeners.called }

/-- Carries out an operation, and notifies at its end. -/
def perform (v : View ι α) (op : Operation) : Outcome ι α :=
  match op with
  | .highlightBracket id _ =>
    match v.tree.bracket? id with
    | none => ⟨v, .range [], []⟩
    | some _ => (v.quietly op).notify
  | .highlightBrace _ _ _ =>
    let o := v.quietly op
    match o.reply with
    | .partner none => o
    | _ => o.notify
  | _ => (v.quietly op).notify

theorem quietly_highlightBracket {v : View ι α} {id : NodeId} (h : v.tree.bracket? id = none)
    (c : Color) : v.quietly (.highlightBracket id c) = ⟨v, .range [], []⟩ := by
  have hrange : v.highlights.tree.bracketRange id = [] := by
    rw [Tree.bracketRange, show v.highlights.tree.bracket? id = none from h]
  simp [quietly, Operation.run, Highlights.highlightBracket, hrange, Highlights.markAll]

/-- Notifying is all that an operation does beside its work. -/
theorem perform_eq_or (v : View ι α) (op : Operation) :
    v.perform op = v.quietly op ∨ v.perform op = (v.quietly op).notify := by
  unfold perform
  split
  · split
    · next h => exact Or.inl (quietly_highlightBracket h _).symm
    · exact Or.inr rfl
  · dsimp only
    split
    · exact Or.inl rfl
    · exact Or.inr rfl
  · exact Or.inr rfl

theorem perform_view (v : View ι α) (op : Operation) :
    (v.perform op).view = { v with highlights := (op.run v.highlights).1 } := by
  rcases v.perform_eq_or op with h | h <;> rw [h] <;> rfl

theorem perform_reply (v : View ι α) (op : Operation) :
    (v.perform op).reply = (op.run v.highlights).2 := by
  rcases v.perform_eq_or op with h | h <;> rw [h] <;> rfl

end View

end TokenHighlight
