import TokenHighlight.Proofs.Broadcast.Delivery

/-!
# A session is a switchboard with one view

Sessions and switchboards are made of the same views and the same hub, and differ in what they keep
beside them: a session numbers its registrations and raises flags, a switchboard has several views
and lets a receiver ask for one event at a time. Every step of a session is therefore a list of
events of the switchboard with its view and its hub, and what is true of receivers in every run of a
switchboard is true of them in a session. Only reading with the limit zero, which asks for nothing,
is no event.

## Main definitions

* `Session.toSwitchboard` — the view and the hub of a session

## Main results

* `Switchboard.exists_run_receive?` — reading is asking several times
* `Session.exists_run_step`, `Session.exists_run_steps` — a step of a session is a list of events,
  and a session a run
-/

namespace TokenHighlight

open Broadcast

namespace Session

/-- The view and the hub of a session. -/
def toSwitchboard (s : Session) : Switchboard Handle :=
  ⟨[s.view], s.hub⟩

/-! ### Notifications -/

theorem toSwitchboard_foldl_hear (called : List Listener) (s : Session) :
    (called.foldl hear s).toSwitchboard =
      ⟨[s.view], s.hub.sendAll (called.filterMap Listener.channel?)⟩ := by
  induction called generalizing s with
  | nil => rfl
  | cons l called ih =>
    rw [List.foldl_cons, ih]
    cases l <;> rfl

theorem run_operate (s : Session) (op : Operation) :
    s.toSwitchboard.run [.operate 0 op] = (s.operate op).session.toSwitchboard := by
  rw [operate]
  refine Eq.trans ?_ (toSwitchboard_foldl_hear _ _).symm
  rfl

theorem run_fire (s : Session) {name : String} {channel : Nat}
    (hc : s.hub.channelOf? name = some channel) (times : Nat) :
    s.toSwitchboard.run (List.replicate times (.fire name)) =
      ⟨[s.view], s.hub.send channel times⟩ := by
  induction times generalizing s with
  | zero =>
    show Switchboard.mk [s.view] s.hub =
      ⟨[s.view], { s.hub with sent := s.hub.sent.modify channel id }⟩
    rw [List.modify_id]
  | succ times ih =>
    have hone : s.toSwitchboard.step (.fire name) =
        { s with hub := s.hub.send channel 1 }.toSwitchboard := by
      rw [Switchboard.step, Switchboard.notified, toSwitchboard, hc]
      rfl
    have hsum : (s.hub.send channel 1).send channel times = s.hub.send channel (times + 1) := by
      rw [Hub.send, Hub.send, List.modify_modify_eq, Hub.send]
      congr 2
      funext n
      exact Nat.add_right_comm n 1 times
    rw [List.replicate_succ, Switchboard.run, List.foldl_cons, hone, ← Switchboard.run, ih, hsum]
    exact hc

/-! ### Reading -/

end Session

namespace Switchboard

variable {ι : Type} [DecidableEq ι] {receiver : String} {r : Receiver}

/-- The switchboard with a receiver somewhere else. -/
def moved (x : Switchboard ι) (receiver : String) (r : Receiver) (next : Nat) : Switchboard ι :=
  { x with
    hub := { x.hub with receivers := Hub.replace receiver { r with next } x.hub.receivers } }

omit [DecidableEq ι] in
theorem moved_moved (x : Switchboard ι) (receiver : String) (r : Receiver) (a b : Nat) :
    (x.moved receiver r a).moved receiver { r with next := a } b = x.moved receiver r b := by
  simp [moved, Hub.replace, List.filter_filter]

/-- Asking once takes a receiver to where it is when it has read. -/
theorem step_poll (x : Switchboard ι) (hr : x.hub.receivers.lookup receiver = some r)
    (isOpen : Bool) :
    x.step (.poll receiver) =
      x.moved receiver r (receive (x.hub.sentOn r.channel) isOpen r.next).2 := by
  have hnext : ∀ isOpen', (drain (x.hub.sentOn r.channel) isOpen' (some 1) 0 r.next).next =
      (receive (x.hub.sentOn r.channel) isOpen r.next).2 := by
    intro isOpen'
    rw [drain_one, receive, receive]
    split
    · split <;> rfl
    · rfl
  simp only [step, act, Hub.receive?_of_lookup hr, hnext]
  rfl

/-- Asking on takes a receiver from where it is to where reading ends. -/
theorem exists_run_moved (x : Switchboard ι) (receiver : String) (r : Receiver) (isOpen : Bool)
    (limit : Option Nat) (events next : Nat) :
    ∃ n, (x.moved receiver r next).run (List.replicate n (.poll receiver)) =
      x.moved receiver r (drain (x.hub.sentOn r.channel) isOpen limit events next).next := by
  induction events, next using drain.induct (x.hub.sentOn r.channel) isOpen limit with
  | case1 events next hlimit =>
    rw [drain_of_limit hlimit]
    exact ⟨0, rfl⟩
  | case2 events next hlimit hstop ih =>
    obtain ⟨n, hn⟩ := ih
    have hr : (x.moved receiver r next).hub.receivers.lookup receiver = some { r with next } :=
      (lookup_replace _ _ _ _).trans (if_pos rfl)
    have hone : (x.moved receiver r next).step (.poll receiver) =
        x.moved receiver r (receive (x.hub.sentOn r.channel) isOpen next).2 :=
      (step_poll _ hr isOpen).trans (moved_moved _ _ _ _ _)
    rw [drain_of_lt hlimit (stop?_receive_eq_none_iff.1 hstop)]
    refine ⟨n + 1, ?_⟩
    rw [List.replicate_succ, run, List.foldl_cons, ← run, hone, hn]
  | case3 events next hlimit stop hstop =>
    rw [drain_of_ne_limit hlimit, hstop]
    exact ⟨0, rfl⟩

/-- **Reading is asking several times**, unless nothing is asked for. -/
theorem exists_run_receive? (x : Switchboard ι) {limit : Option Nat} (hlimit : limit ≠ some 0)
    {d : Drained} {hub : Hub}
    (h : x.hub.receive? x.isAttached receiver limit = some (d, hub)) :
    ∃ n, x.run (List.replicate n (.poll receiver)) = { x with hub } := by
  cases hr : x.hub.receivers.lookup receiver with
  | none =>
    rw [Hub.receive?_of_lookup_eq_none hr] at h
    cases h
  | some r =>
    rw [Hub.receive?_of_lookup hr] at h
    obtain ⟨rfl, rfl⟩ := Prod.mk.inj (Option.some.inj h)
    set isOpen := x.hub.hasSender r.channel || x.isAttached r.channel
    have hpoll := x.step_poll hr isOpen
    rcases Nat.lt_or_ge r.next (x.hub.sentOn r.channel) with hlt | hle
    · -- The first event is behind the receiver, and the others are asked for from there.
      obtain ⟨n, hn⟩ := x.exists_run_moved receiver r isOpen limit 1
        (receive (x.hub.sentOn r.channel) isOpen r.next).2
      refine ⟨n + 1, ?_⟩
      rw [List.replicate_succ, run, List.foldl_cons, ← run, hpoll, hn, drain_of_lt hlimit hlt]
      rfl
    · rw [receive_of_le hle] at hpoll
      refine ⟨1, ?_⟩
      rw [drain_of_le hlimit hle]
      exact hpoll

end Switchboard

namespace Session

theorem isAttached_toSwitchboard (s : Session) : s.toSwitchboard.isAttached = s.isAttached := by
  funext channel
  exact Bool.or_false _

/-! ### Steps -/

/-- Taking over a tree that has grown, or leaving it, is an edit. -/
theorem run_edit_add (s : Session) (a : Tree.Addition) :
    s.toSwitchboard.run [.edit 0 fun t => t.add a] =
      (s.grow (a.run s.view.tree)).session.toSwitchboard := by
  show Switchboard.mk [s.view.setTree (s.view.tree.add a)] s.hub = _
  rw [Tree.add]
  cases a.run s.view.tree <;> rfl

/-- **A step of a session is a list of events.** -/
theorem exists_run_step (s : Session) (step : Step) (h : ∀ r, step ≠ .receive r (some 0)) :
    ∃ events, s.toSwitchboard.run events = (s.step step).session.toSwitchboard := by
  cases step with
  | operate op => exact ⟨[.operate 0 op], s.run_operate op⟩
  | addGroup parent => exact ⟨_, s.run_edit_add (.group parent)⟩
  | addToken parent data => exact ⟨_, s.run_edit_add (.token parent (.plain data))⟩
  | paint id color => exact ⟨[.edit 0 fun t => t.modifyToken id _], rfl⟩
  | setMatching id matching => exact ⟨[.edit 0 fun t => t.modifyToken id _], rfl⟩
  | replaceTree tree => exact ⟨[.edit 0 fun _ => tree], rfl⟩
  | renewView palette => exact ⟨[.closeView 0, .openView s.view.tree palette], rfl⟩
  | subscribe name => exact ⟨[.subscribe 0 (.subscription s.subscriptions) (.logger name) rfl], rfl⟩
  | unsubscribe n => exact ⟨[.unsubscribe 0 (.subscription n)], rfl⟩
  | attachFlag => exact ⟨[.subscribe 0 (.flag s.flags.length) (.flag s.flags.length) rfl], rfl⟩
  | takeFlag n => exact ⟨[], rfl⟩
  | createChannel name => exact ⟨[.create name], rfl⟩
  | cloneSender name copy =>
    refine ⟨[.clone name copy], ?_⟩
    show Switchboard.mk [s.view] ((s.hub.clone? name copy).getD s.hub) = _
    rw [Session.step]
    cases s.hub.clone? name copy <;> rfl
  | dropSender name => exact ⟨[.drop name], rfl⟩
  | addReceiver name receiver =>
    refine ⟨[.listen name receiver], ?_⟩
    show Switchboard.mk [s.view] ((s.hub.listen? name receiver).getD s.hub) = _
    rw [Session.step]
    cases s.hub.listen? name receiver <;> rfl
  | attachSender name =>
    cases hc : s.hub.channelOf? name with
    | none => exact ⟨[], by rw [Session.step, hc]; rfl⟩
    | some channel =>
      refine ⟨[.attach 0 (.subscription s.subscriptions) name], ?_⟩
      rw [Session.step, hc, Switchboard.run, List.foldl_cons, Switchboard.step, Switchboard.act,
        toSwitchboard, hc]
      rfl
  | fire name times =>
    cases hc : s.hub.channelOf? name with
    | none => exact ⟨[], by rw [Session.step, hc]; rfl⟩
    | some channel => exact ⟨_, (s.run_fire hc times).trans (by rw [Session.step, hc]; rfl)⟩
  | receive receiver limit =>
    cases hd : s.hub.receive? s.isAttached receiver limit with
    | none => exact ⟨[], by rw [Session.step, hd]; rfl⟩
    | some result =>
      have hlimit : limit ≠ some 0 := fun hzero => h receiver (by rw [hzero])
      rw [← s.isAttached_toSwitchboard] at hd
      obtain ⟨n, hn⟩ := s.toSwitchboard.exists_run_receive? hlimit hd
      rw [s.isAttached_toSwitchboard] at hd
      exact ⟨_, hn.trans (by rw [Session.step, hd]; rfl)⟩

/-- **A session is a run of a switchboard** that opens one view and goes on from there. -/
theorem exists_run_steps (tree : Tree) {steps : List Step}
    (h : ∀ step ∈ steps, ∀ r, step ≠ .receive r (some 0)) :
    ∃ events, Switchboard.empty.run (.openView tree .default :: events) =
      (steps.foldl (fun s step => (s.step step).session) (start tree)).toSwitchboard := by
  induction steps using List.reverseRecOn with
  | nil => exact ⟨[], rfl⟩
  | append_singleton steps step ih =>
    obtain ⟨hsteps, hstep⟩ := List.forall_mem_append.1 h
    obtain ⟨events, hevents⟩ := ih hsteps
    set s := steps.foldl (fun s step => (s.step step).session) (start tree)
    obtain ⟨more, hmore⟩ := s.exists_run_step step (hstep step List.mem_cons_self)
    refine ⟨events ++ more, ?_⟩
    calc Switchboard.empty.run (.openView tree .default :: events ++ more)
        = (Switchboard.empty.run (.openView tree .default :: events)).run more := List.foldl_append
      _ = (s.step step).session.toSwitchboard := by rw [hevents, hmore]
      _ = _ := by rw [List.foldl_append, List.foldl_cons, List.foldl_nil]

end Session

end TokenHighlight
