import TokenHighlight.Proofs.Broadcast.Reading
import TokenHighlight.Proofs.View.Notification
import TokenHighlight.Session

/-!
# Views that share channels

A session has one view. A host may have any number of them at a time, each with senders of any
channels among its listeners, beside the senders that the host keeps under names. A sender comes
from a sender: it is made with its channel, or it is a clone, which gets a name of its own or is
attached to a view. A view that is dropped takes its listeners with it.

## Main definitions

* `Switchboard` — views and channels
* `Switchboard.Event`, `Switchboard.step` — what can happen, and what comes of it
* `Switchboard.notified` — the channels that an event sends on
* `Switchboard.poll?` — what a receiver is told when it asks once

## Main results

* `Switchboard.Follows.step` — what an event does to a receiver
* `Switchboard.Follows.poll?_eq` — what a receiver is told
* `Switchboard.isOpen_step` — a channel without senders stays without
-/

namespace TokenHighlight

/-- The channel that a listener sends on, if it is a sender. -/
def Session.Listener.channel? : Listener → Option Nat
  | channel n => some n
  | _ => none

namespace Broadcast.Hub

/-- Sends one notification on each of some channels, one after the other. -/
def sendAll (h : Hub) (channels : List Nat) : Hub :=
  channels.foldl (fun h channel => h.send channel 1) h

variable {h : Hub} {channel : Nat}

theorem sentOn_send (hc : channel < h.sent.length) (other times : Nat) :
    (h.send other times).sentOn channel =
      h.sentOn channel + if other = channel then times else 0 := by
  rw [sentOn, send, List.getD_eq_getElem?_getD, List.getElem?_modify, sentOn,
    List.getD_eq_getElem?_getD, List.getElem?_eq_getElem hc]
  split <;> simp_all

theorem sent_sendAll (h : Hub) (channels : List Nat) :
    (h.sendAll channels).sent = channels.foldl (fun sent c => sent.modify c (· + 1)) h.sent := by
  induction channels generalizing h with
  | nil => rfl
  | cons c channels ih => exact ih (h.send c 1)

@[simp] theorem length_sent_sendAll (h : Hub) (channels : List Nat) :
    (h.sendAll channels).sent.length = h.sent.length := by
  induction channels generalizing h with
  | nil => rfl
  | cons c channels ih => exact (ih (h.send c 1)).trans (List.length_modify _ _ _)

@[simp] theorem senders_sendAll (h : Hub) (channels : List Nat) :
    (h.sendAll channels).senders = h.senders := by
  induction channels generalizing h with
  | nil => rfl
  | cons c channels ih => exact ih (h.send c 1)

@[simp] theorem receivers_sendAll (h : Hub) (channels : List Nat) :
    (h.sendAll channels).receivers = h.receivers := by
  induction channels generalizing h with
  | nil => rfl
  | cons c channels ih => exact ih (h.send c 1)

theorem sentOn_sendAll (hc : channel < h.sent.length) (channels : List Nat) :
    (h.sendAll channels).sentOn channel = h.sentOn channel + channels.count channel := by
  induction channels generalizing h with
  | nil => rfl
  | cons c channels ih =>
    have hlen : channel < (h.send c 1).sent.length := by
      rw [send, List.length_modify]
      exact hc
    rw [sendAll, List.foldl_cons, ← sendAll, ih hlen, sentOn_send hc, List.count_cons,
      Nat.add_assoc, Nat.add_comm (List.count _ _)]
    simp

end Broadcast.Hub

open Broadcast

/-- Views by number, and the channels that their listeners may send on. -/
structure Switchboard (ι : Type) where
  views : List (View ι Session.Listener)
  hub : Hub

namespace Switchboard

variable {ι : Type}

/-- Neither views nor channels. -/
def empty : Switchboard ι :=
  ⟨[], .empty⟩

/-- Whether a sender of a channel is attached to some view. -/
def isAttached (x : Switchboard ι) (channel : Nat) : Bool :=
  x.views.any fun v => v.listeners.called.contains (.channel channel)

/-- Whether a channel has a sender, with a name or attached to a view. -/
def isOpen (x : Switchboard ι) (channel : Nat) : Bool :=
  x.hub.hasSender channel || x.isAttached channel

/-- What a receiver is told when it asks once. -/
def poll? (x : Switchboard ι) (receiver : String) : Option Poll :=
  (x.hub.receive? x.isAttached receiver (some 1)).map (·.1.stop.poll)

/-! ### Events -/

/-- What can happen. Views are named by their place in the list. -/
inductive Event (ι : Type)
  /-- Makes a channel with a sender. -/
  | create (name : String)
  | clone (name copy : String)
  | drop (name : String)
  | listen (name receiver : String)
  | fire (name : String)
  | openView (tree : Tree) (palette : Palette)
  | closeView (view : Nat)
  /-- Attaches a clone of a sender to a view. -/
  | attach (view : Nat) (id : ι) (name : String)
  /-- Registers a listener that sends on no channel. -/
  | subscribe (view : Nat) (id : ι) (listener : Session.Listener) (hl : listener.channel? = none)
  | unsubscribe (view : Nat) (id : ι)
  | operate (view : Nat) (op : Operation)
  /-- Changes the tree of a view, or puts another in its place, without telling the view. -/
  | edit (view : Nat) (f : Tree → Tree)
  | poll (receiver : String)

namespace Event

/-- Whether a receiver asks for its next event. -/
def asks (receiver : String) : Event ι → Bool
  | poll other => other = receiver
  | _ => false

/-- Whether a receiver is made under a name, which ends the one that had it. -/
def renews (receiver : String) : Event ι → Bool
  | listen _ other => other = receiver
  | _ => false

end Event

/-- The channels that an event sends on, one for each notification. -/
def notified (x : Switchboard ι) : Event ι → List Nat
  | .fire name => (x.hub.channelOf? name).toList
  | .operate view op =>
    match x.views[view]? with
    | some v => (v.perform op).called.filterMap Session.Listener.channel?
    | none => []
  | _ => []

/-- Changes a view. -/
def onView (x : Switchboard ι) (view : Nat)
    (f : View ι Session.Listener → View ι Session.Listener) : Switchboard ι :=
  { x with views := x.views.modify view f }

variable [DecidableEq ι]

/-- What comes of an event, apart from what it sends. -/
def act (x : Switchboard ι) : Event ι → Switchboard ι
  | .create name => { x with hub := x.hub.create name }
  | .clone name copy => { x with hub := (x.hub.clone? name copy).getD x.hub }
  | .drop name => { x with hub := (x.hub.drop name).2 }
  | .listen name receiver => { x with hub := (x.hub.listen? name receiver).getD x.hub }
  | .fire _ => x
  | .openView tree palette => { x with views := x.views ++ [.start tree palette] }
  | .closeView view => { x with views := x.views.eraseIdx view }
  | .attach view id name =>
    match x.hub.channelOf? name with
    | some channel =>
      x.onView view fun v => { v with listeners := v.listeners.subscribe id (.channel channel) }
    | none => x
  | .subscribe view id listener _ =>
    x.onView view fun v => { v with listeners := v.listeners.subscribe id listener }
  | .unsubscribe view id =>
    x.onView view fun v => { v with listeners := (v.listeners.unsubscribe id).2 }
  | .operate view op => x.onView view fun v => (v.perform op).view
  | .edit view f => x.onView view fun v => v.setTree (f v.tree)
  | .poll receiver =>
    match x.hub.receive? x.isAttached receiver (some 1) with
    | some (_, hub) => { x with hub }
    | none => x

/-- What comes of an event. -/
def step (x : Switchboard ι) (e : Event ι) : Switchboard ι :=
  { x.act e with hub := (x.act e).hub.sendAll (x.notified e) }

variable {x y : Switchboard ι} {receiver : String} {channel unread : Nat} {e : Event ι}

/-! ### Open channels -/

theorem mem_replace {α : Type} {name : String} {value : α} {entries : List (String × α)}
    {entry : String × α} (h : entry ∈ Hub.replace name value entries) :
    entry.2 = value ∨ entry ∈ entries := by
  rcases List.mem_cons.1 h with rfl | h
  · exact Or.inl rfl
  · exact Or.inr (List.mem_of_mem_filter h)

omit [DecidableEq ι] in
theorem hasSender_of_channelOf? {name : String} (h : x.hub.channelOf? name = some channel) :
    x.hub.hasSender channel = true :=
  List.any_eq_true.2 ⟨_, mem_of_lookup h, decide_eq_true rfl⟩

omit [DecidableEq ι] in
theorem isOpen_iff :
    x.isOpen channel = true ↔ (∃ s ∈ x.hub.senders, s.2 = channel) ∨
      ∃ v ∈ x.views, .channel channel ∈ v.listeners.called := by
  simp [isOpen, Hub.hasSender, isAttached]

omit [DecidableEq ι] in
/-- A view behind a change was there before, or is the changed form of one that was. -/
theorem mem_views_onView {view : Nat} {f : View ι Session.Listener → View ι Session.Listener}
    {v : View ι Session.Listener} (h : v ∈ (x.onView view f).views) :
    ∃ w ∈ x.views, v = w ∨ v = f w := by
  obtain ⟨i, hi⟩ := List.mem_iff_getElem?.1 h
  rw [onView, List.getElem?_modify, Option.map_eq_map, Option.map_eq_some_iff] at hi
  obtain ⟨w, hw, hv⟩ := hi
  refine ⟨w, List.mem_of_getElem? hw, ?_⟩
  split at hv
  · exact Or.inr hv.symm
  · exact Or.inl hv.symm

omit [DecidableEq ι] in
/-- Only senders send. -/
theorem isOpen_of_mem_notified (h : channel ∈ x.notified e) : x.isOpen channel = true := by
  cases e with
  | fire name =>
    rw [isOpen, hasSender_of_channelOf? (Option.mem_toList.1 h), Bool.true_or]
  | operate view op =>
    rw [notified] at h
    split at h
    · next v hv =>
      obtain ⟨l, hl, hlc⟩ := List.mem_filterMap.1 h
      have hcalled : l ∈ v.listeners.called := by
        rw [View.called_perform] at hl
        split at hl
        · exact hl
        · cases hl
      cases l with
      | channel n =>
        obtain rfl : n = channel := Option.some.inj hlc
        exact isOpen_iff.2 (Or.inr ⟨v, List.mem_of_getElem? hv, hcalled⟩)
      | _ => cases hlc
    · cases h
  | _ => cases h

/-- The senders with names behind an event were there before, or are clones of one that was, or
belong to a new channel. -/
theorem exists_sender_of_step {s : String × Nat} (h : s ∈ (x.step e).hub.senders) :
    (∃ s' ∈ x.hub.senders, s'.2 = s.2) ∨
      (s.2 = x.hub.sent.length ∧ x.hub.sent.length < (x.step e).hub.sent.length) := by
  rw [step, Hub.senders_sendAll] at h
  have hsame : s ∈ x.hub.senders → ∃ s' ∈ x.hub.senders, s'.2 = s.2 := fun hs => ⟨s, hs, rfl⟩
  cases e with
  | create name =>
    refine (mem_replace h).symm.imp hsame fun hnew => ⟨hnew, ?_⟩
    rw [step, Hub.length_sent_sendAll]
    exact List.length_append ▸ Nat.lt_succ_self _
  | clone name copy =>
    cases hc : x.hub.channelOf? name with
    | none =>
      simp only [act, Hub.clone?, hc] at h
      exact Or.inl (hsame h)
    | some c =>
      simp only [act, Hub.clone?, hc] at h
      rcases mem_replace h with hs | hs
      · exact Or.inl ⟨_, mem_of_lookup hc, hs.symm⟩
      · exact Or.inl (hsame hs)
  | drop name => exact Or.inl (hsame (List.mem_of_mem_filter h))
  | listen name receiver =>
    cases hc : x.hub.channelOf? name with
    | none =>
      simp only [act, Hub.listen?, hc] at h
      exact Or.inl (hsame h)
    | some c =>
      simp only [act, Hub.listen?, hc] at h
      exact Or.inl (hsame h)
  | attach view id name =>
    rw [act] at h
    split at h
    · exact Or.inl (hsame h)
    · exact Or.inl (hsame h)
  | poll receiver =>
    cases hr : x.hub.receivers.lookup receiver with
    | none =>
      simp only [act, Hub.receive?, hr] at h
      exact Or.inl (hsame h)
    | some rc =>
      simp only [act, Hub.receive?, hr] at h
      exact Or.inl (hsame h)
  | _ => exact Or.inl (hsame h)

/-- The senders that are attached behind an event were attached before, or one of them is a clone of
a sender with a name. -/
theorem isOpen_of_attached_step {v : View ι Session.Listener} (hv : v ∈ (x.step e).views)
    (hl : .channel channel ∈ v.listeners.called) : x.isOpen channel = true := by
  have hsame : ∀ w ∈ x.views, .channel channel ∈ w.listeners.called → x.isOpen channel = true :=
    fun w hw hl => isOpen_iff.2 (Or.inr ⟨w, hw, hl⟩)
  cases e with
  | openView tree palette =>
    rcases List.mem_append.1 hv with hv | hv
    · exact hsame v hv hl
    · rw [List.mem_singleton.1 hv] at hl
      cases hl
  | closeView view => exact hsame v (List.mem_of_mem_eraseIdx hv) hl
  | attach view id name =>
    rw [step, act] at hv
    split at hv
    · next c hc =>
      obtain ⟨w, hw, rfl | rfl⟩ := mem_views_onView hv
      · exact hsame v hw hl
      · rw [Listeners.called_subscribe, List.mem_append, List.mem_singleton] at hl
        rcases hl with hl | hl
        · exact hsame w hw hl
        · cases hl
          rw [isOpen, hasSender_of_channelOf? hc, Bool.true_or]
    · exact hsame v hv hl
  | subscribe view id listener hother =>
    obtain ⟨w, hw, rfl | rfl⟩ := mem_views_onView hv
    · exact hsame v hw hl
    · rw [Listeners.called_subscribe, List.mem_append, List.mem_singleton] at hl
      rcases hl with hl | rfl
      · exact hsame w hw hl
      · cases hother
  | unsubscribe view id =>
    obtain ⟨w, hw, rfl | rfl⟩ := mem_views_onView hv
    · exact hsame v hw hl
    · obtain ⟨entry, hentry, hl⟩ := List.mem_map.1 hl
      exact hsame w hw (List.mem_map.2 ⟨entry, List.mem_of_mem_eraseP hentry, hl⟩)
  | operate view op =>
    obtain ⟨w, hw, rfl | rfl⟩ := mem_views_onView hv
    · exact hsame v hw hl
    · rw [View.perform_view] at hl
      exact hsame w hw hl
  | edit view e =>
    obtain ⟨w, hw, rfl | rfl⟩ := mem_views_onView hv
    · exact hsame v hw hl
    · exact hsame w hw hl
  | poll receiver =>
    rw [step, act] at hv
    split at hv
    · exact hsame v hv hl
    · exact hsame v hv hl
  | _ => exact hsame v hv hl

/-- **A channel without senders stays without**, since senders come from senders. -/
theorem isOpen_step (hc : channel < x.hub.sent.length) (h : (x.step e).isOpen channel = true) :
    x.isOpen channel = true := by
  rcases isOpen_iff.1 h with ⟨s, hs, rfl⟩ | ⟨v, hv, hl⟩
  · rcases exists_sender_of_step hs with hold | hnew
    · exact isOpen_iff.2 (Or.inl hold)
    · exact absurd hnew.1 (Nat.ne_of_lt hc)
  · exact isOpen_of_attached_step hv hl

/-! ### One receiver -/

/-- A receiver is on a channel, and so many of its notifications are unread. -/
structure Follows (x : Switchboard ι) (receiver : String) (channel unread : Nat) : Prop where
  lt_length : channel < x.hub.sent.length
  exists_next : ∃ next, x.hub.receivers.lookup receiver = some ⟨channel, next⟩ ∧
    next + unread = x.hub.sentOn channel

namespace Follows

omit [DecidableEq ι] in
/-- **What a receiver is told**: of an event if some notification is unread, and else whether one
can come. -/
theorem poll?_eq (h : x.Follows receiver channel unread) :
    x.poll? receiver =
      some (if 0 < unread then .event else if x.isOpen channel then .waits else .ended) := by
  obtain ⟨next, hr, hnext⟩ := h.exists_next
  rw [poll?, Hub.receive?_of_lookup hr, Option.map_some, drain_one]
  by_cases hlt : next < x.hub.sentOn channel
  · have hunread : 0 < unread := by omega
    rw [if_pos hlt, if_pos hunread]
    rfl
  · have hunread : ¬0 < unread := by omega
    rw [if_neg hlt, if_neg hunread]
    show some (Stop.poll (if x.isOpen channel then .pending else .closed)) = _
    cases x.isOpen channel <;> rfl

omit [DecidableEq ι] in
theorem congr (h : x.Follows receiver channel unread)
    (hr : y.hub.receivers.lookup receiver = x.hub.receivers.lookup receiver)
    (hs : y.hub.sentOn channel = x.hub.sentOn channel)
    (hlen : x.hub.sent.length ≤ y.hub.sent.length) : y.Follows receiver channel unread where
  lt_length := Nat.lt_of_lt_of_le h.lt_length hlen
  exists_next := by
    rw [hr, hs]
    exact h.exists_next

/-- Apart from what is sent, an event matters to a receiver only if the receiver asks. Then it is
past one notification more, or past all that are not kept. -/
theorem act (h : x.Follows receiver channel unread) (he : e.renews receiver = false) :
    (x.act e).Follows receiver channel
      (if e.asks receiver then min (unread - 1) capacity else unread) := by
  cases e with
  | create name =>
    refine h.congr rfl ?_ (List.length_append ▸ Nat.le_add_right _ _)
    rw [Hub.sentOn, Hub.sentOn, List.getD_eq_getElem?_getD, List.getD_eq_getElem?_getD]
    exact congrArg (·.getD 0) (List.getElem?_append_left h.lt_length)
  | clone name copy =>
    cases hc : x.hub.channelOf? name with
    | none =>
      simp only [Switchboard.act, Hub.clone?, hc]
      exact h
    | some c =>
      simp only [Switchboard.act, Hub.clone?, hc]
      exact h.congr rfl rfl (Nat.le_refl _)
  | listen name other =>
    have hne : receiver ≠ other := fun heq => by simp [Event.renews, heq] at he
    cases hc : x.hub.channelOf? name with
    | none =>
      simp only [Switchboard.act, Hub.listen?, hc]
      exact h
    | some c =>
      simp only [Switchboard.act, Hub.listen?, hc]
      refine h.congr ?_ rfl (Nat.le_refl _)
      exact (lookup_replace _ _ _ _).trans (if_neg hne)
  | attach view id name =>
    rw [Switchboard.act]
    split
    · exact h.congr rfl rfl (Nat.le_refl _)
    · exact h
  | poll other =>
    rw [Switchboard.act]
    by_cases hother : other = receiver
    · subst hother
      obtain ⟨next, hr, hnext⟩ := h.exists_next
      have hasks : (Event.poll other : Event ι).asks other = true := decide_eq_true rfl
      rw [Hub.receive?_of_lookup hr, hasks, if_pos rfl]
      refine ⟨h.lt_length, _, (lookup_replace _ _ _ _).trans (if_pos rfl), ?_⟩
      have hle : next ≤ x.hub.sentOn channel := by omega
      have hunread : x.hub.sentOn channel - next = unread := by omega
      rw [← hunread]
      exact next_drain_one_add _ hle
    · have hasks : (Event.poll other : Event ι).asks receiver = false := by simpa [Event.asks]
      rw [hasks]
      cases hr : x.hub.receivers.lookup other with
      | none =>
        rw [Hub.receive?_of_lookup_eq_none hr]
        exact h
      | some r =>
        rw [Hub.receive?_of_lookup hr]
        refine h.congr ?_ rfl (Nat.le_refl _)
        exact (lookup_replace _ _ _ _).trans (if_neg (Ne.symm hother))
  | _ => exact h.congr rfl rfl (Nat.le_refl _)

/-- **What an event does to a receiver.** It is the only one to be set back by its own polls, and
what is sent on its channel adds to what it has not read. -/
theorem step (h : x.Follows receiver channel unread) (he : e.renews receiver = false) :
    (x.step e).Follows receiver channel
      ((if e.asks receiver then min (unread - 1) capacity else unread) +
        (x.notified e).count channel) := by
  have hact := h.act he
  obtain ⟨next, hr, hnext⟩ := hact.exists_next
  refine ⟨?_, next, ?_, ?_⟩
  · rw [Switchboard.step, Hub.length_sent_sendAll]
    exact hact.lt_length
  · rw [Switchboard.step, Hub.receivers_sendAll]
    exact hr
  · rw [Switchboard.step, Hub.sentOn_sendAll hact.lt_length, ← hnext, Nat.add_assoc]

end Follows

end Switchboard

end TokenHighlight
