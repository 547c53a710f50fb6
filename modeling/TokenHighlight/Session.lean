import TokenHighlight.Listener.Broadcast
import TokenHighlight.View

/-!
# Sessions

A session is a view with everything around it that hears of its changes: listeners that keep a log,
flags that a display attaches to learn whether to repaint, and channels that pass notifications on.
Registrations, flags and operations are numbered or named here, so that a session can be driven by
a list of steps.

A view can be replaced by a fresh one. Registrations and flags belong to the view and are gone with
it; named senders and receivers stay.

## Main definitions

* `Session.Handle`, `Session.Listener` — what is registered in the view of a session, and by what
  name
* `Session.Step`, `Session.Answer` — what can be done, and what is answered
* `Session.step` — one step
-/

namespace TokenHighlight

namespace Session

/-- The name of a registration: subscriptions and flags are numbered apart. -/
inductive Handle
  | subscription (n : Nat)
  | flag (n : Nat)
deriving DecidableEq, Repr

/-- What hears of changes. -/
inductive Listener
  /-- Leaves its name in the log. -/
  | logger (name : String)
  /-- Raises a flag. -/
  | flag (n : Nat)
  /-- Sends on a channel. -/
  | channel (n : Nat)
deriving DecidableEq, Repr

/-- What a listener leaves in the log. -/
def Listener.logged? : Listener → Option String
  | logger name => some name
  | _ => none

end Session

/-- A view and whatever hears of its changes. -/
structure Session where
  view : View Session.Handle Session.Listener
  /-- How many subscriptions there have been. -/
  subscriptions : Nat
  /-- The flags of the view, each raised or not. -/
  flags : List Bool
  hub : Broadcast.Hub

namespace Session

/-- A session about a tree, with no listeners. -/
def start (tree : Tree) : Session :=
  ⟨.start tree .default, 0, [], .empty⟩

/-! ### Notifications -/

/-- What a call does to a session, apart from the log. -/
def hear (s : Session) : Listener → Session
  | .logger _ => s
  | .flag n => { s with flags := s.flags.set n true }
  | .channel n => { s with hub := s.hub.send n 1 }

/-- Whether a listener of the view sends on a channel. -/
def isAttached (s : Session) (channel : Nat) : Bool :=
  s.view.listeners.called.contains (.channel channel)

/-! ### Steps -/

/-- What can be done in a session. -/
inductive Step
  | operate (op : Operation)
  | addGroup (parent : NodeId)
  | addToken (parent : NodeId) (data : TokenData)
  /-- Sets the color of a token without telling the view. -/
  | paint (id : NodeId) (color : Option Color)
  /-- Sets the flag of a token without telling the view. -/
  | setMatching (id : NodeId) (matching : Bool)
  | replaceTree (tree : Tree)
  /-- Starts a fresh view of the same tree. -/
  | renewView (palette : Palette)
  | subscribe (name : String)
  | unsubscribe (n : Nat)
  | attachFlag
  | takeFlag (n : Nat)
  | createChannel (name : String)
  | cloneSender (name copy : String)
  | dropSender (name : String)
  | addReceiver (name receiver : String)
  | attachSender (name : String)
  | fire (name : String) (times : Nat)
  | receive (receiver : String) (limit : Option Nat)

/-- What a step answers. -/
inductive Answer
  | nothing
  | truth (b : Bool)
  /-- The number of a new node, subscription or flag. -/
  | number (n : Nat)
  | refused (error : TreeError)
  | reply (r : Reply)
  | drained (d : Broadcast.Drained)
  /-- No sender or receiver has the name. -/
  | unknownName
deriving DecidableEq, Repr

/-- What comes of a step: the session behind it, the answer, and what listeners left in the log. -/
structure Outcome where
  session : Session
  answer : Answer
  logged : List String := []

/-- Changes the tree without telling the view, and tells whether a number names a token. -/
def edit (s : Session) (id : NodeId) (f : Token → Token) : Outcome where
  session := { s with view := s.view.setTree (s.view.tree.modifyToken id f) }
  answer := .truth (s.view.tree.token? id).isSome

/-- Takes over a tree to which a node was added, unless that failed. -/
def grow (s : Session) : Except TreeError (NodeId × Tree) → Outcome
  | .ok (id, tree) => ⟨{ s with view := s.view.setTree tree }, .number id, []⟩
  | .error e => ⟨s, .refused e, []⟩

/-- Registers a listener under the next number. -/
def register (s : Session) (listener : Listener) : Outcome where
  session :=
    { s with
      view.listeners := s.view.listeners.subscribe (.subscription s.subscriptions) listener
      subscriptions := s.subscriptions + 1 }
  answer := .number s.subscriptions

/-- Carries out an operation and lets every listener that is called hear of it. -/
def operate (s : Session) (op : Operation) : Outcome :=
  let o := s.view.perform op
  { session := o.called.foldl hear { s with view := o.view }
    answer := .reply o.reply
    logged := o.called.filterMap Listener.logged? }

/-- Takes over the channels as they are changed by a step, if the names in it are known. -/
def withHub (s : Session) : Option (Answer × Broadcast.Hub) → Outcome
  | some (answer, hub) => ⟨{ s with hub }, answer, []⟩
  | none => ⟨s, .unknownName, []⟩

/-- Carries out a step. -/
def step (s : Session) : Step → Outcome
  | .operate op => s.operate op
  | .addGroup parent => s.grow (s.view.tree.addGroup parent)
  | .addToken parent data => s.grow (s.view.tree.addToken parent (.plain data))
  | .paint id color => s.edit id fun tok => { tok with highlight := color }
  | .setMatching id matching => s.edit id fun tok => { tok with matching }
  | .replaceTree tree => ⟨{ s with view := s.view.setTree tree }, .nothing, []⟩
  | .renewView palette =>
    ⟨{ s with view := .start s.view.tree palette, subscriptions := 0, flags := [] }, .nothing, []⟩
  | .subscribe name => s.register (.logger name)
  | .unsubscribe n =>
    let (found, listeners) := s.view.listeners.unsubscribe (.subscription n)
    ⟨{ s with view.listeners := listeners }, .truth found, []⟩
  | .attachFlag =>
    let n := s.flags.length
    ⟨{ s with
        view.listeners := s.view.listeners.subscribe (.flag n) (.flag n)
        flags := s.flags ++ [false] }, .number n, []⟩
  | .takeFlag n => ⟨{ s with flags := s.flags.set n false }, .truth (s.flags.getD n false), []⟩
  | .createChannel name => s.withHub (some (.nothing, s.hub.create name))
  | .cloneSender name copy => s.withHub ((s.hub.clone? name copy).map (.nothing, ·))
  | .dropSender name =>
    let (found, hub) := s.hub.drop name
    s.withHub (some (.truth found, hub))
  | .addReceiver name receiver => s.withHub ((s.hub.listen? name receiver).map (.nothing, ·))
  | .attachSender name =>
    match s.hub.channelOf? name with
    | some channel => s.register (.channel channel)
    | none => ⟨s, .unknownName, []⟩
  | .fire name times =>
    s.withHub ((s.hub.channelOf? name).map fun channel => (.nothing, s.hub.send channel times))
  | .receive receiver limit =>
    s.withHub ((s.hub.receive? s.isAttached receiver limit).map fun (d, hub) => (.drained d, hub))

end Session

end TokenHighlight
