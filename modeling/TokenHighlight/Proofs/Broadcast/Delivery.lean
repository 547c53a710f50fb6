import TokenHighlight.Proofs.Broadcast.Switchboard

/-!
# What receivers get

A notification says that something changed, so it does no harm that several of them become one
event. It would if one of them became none. Three things could go wrong between a channel and its
receivers: a receiver could be told of changes that did not happen, or wait although something did,
or miss what another receiver was told instead.

None of them can. `Follows` carries one receiver through a run with the number of its unread
notifications, and each poll takes from that number as much as an event stands for. What is true of
a receiver from the moment it was made is then an induction over events.

## Main definitions

* `Switchboard.run`, `Switchboard.notifications` — what comes of events, and what they send
* `Switchboard.polls`, `Switchboard.answers` — when a receiver asks, and what it is told
* `Switchboard.unread` — how many notifications a receiver is not past

## Main results

* `Switchboard.Follows.getElem?_polls` — what a receiver is told as long as nothing is sent
* `Switchboard.Follows.count_answers_le` — no more events than notifications
* `Switchboard.answers_filter` — receivers do not disturb each other
* `Switchboard.receivers_hear_of_changes` — the whole contract of broadcasting
-/

namespace TokenHighlight

open Broadcast

namespace Switchboard

variable {ι : Type}

/-- How many notifications a receiver is not past. -/
def unread (x : Switchboard ι) (receiver : String) : Nat :=
  match x.hub.receivers.lookup receiver with
  | some r => x.hub.sentOn r.channel - r.next
  | none => 0

variable [DecidableEq ι]

/-! ### Runs -/

/-- What comes of several events. -/
def run (x : Switchboard ι) (events : List (Event ι)) : Switchboard ι :=
  events.foldl step x

/-- The channels that are sent on, one for each notification. -/
def notifications : Switchboard ι → List (Event ι) → List Nat
  | _, [] => []
  | x, e :: events => x.notified e ++ notifications (x.step e) events

/-- The moments at which a receiver asks for its next event. -/
def polls (receiver : String) : Switchboard ι → List (Event ι) → List (Switchboard ι)
  | _, [] => []
  | x, e :: events =>
    if e.asks receiver then x :: polls receiver (x.step e) events
    else polls receiver (x.step e) events

/-- What a receiver is told, one for each time that it asks. -/
def answers (receiver : String) (x : Switchboard ι) (events : List (Event ι)) :
    List (Option Poll) :=
  (polls receiver x events).map (·.poll? receiver)

/-- No receiver is made under a name, so that the one that has it stays. -/
def Keeps (receiver : String) (events : List (Event ι)) : Prop :=
  ∀ e ∈ events, e.renews receiver = false

variable {x y : Switchboard ι} {receiver : String} {channel k : Nat} {e : Event ι}
  {events : List (Event ι)}

omit [DecidableEq ι] in
theorem Keeps.head (h : Keeps receiver (e :: events)) : e.renews receiver = false :=
  h e List.mem_cons_self

omit [DecidableEq ι] in
theorem Keeps.tail (h : Keeps receiver (e :: events)) : Keeps receiver events :=
  fun d hd => h d (List.mem_cons_of_mem e hd)

/-! ### Senders have channels -/

theorem length_sent_le_step (x : Switchboard ι) (e : Event ι) :
    x.hub.sent.length ≤ (x.step e).hub.sent.length := by
  rw [step, Hub.length_sent_sendAll]
  cases e with
  | create name => exact List.length_append ▸ Nat.le_add_right _ _
  | clone name copy => cases hc : x.hub.channelOf? name <;> simp [act, Hub.clone?, hc]
  | listen name other => cases hc : x.hub.channelOf? name <;> simp [act, Hub.listen?, hc]
  | attach view id name => cases hc : x.hub.channelOf? name <;> simp [act, onView, hc]
  | poll other => cases hr : x.hub.receivers.lookup other <;> simp [act, Hub.receive?, hr]
  | _ => exact Nat.le_refl _

/-- Every sender with a name has a channel that is there. -/
theorem sender_lt_run (events : List (Event ι)) :
    ∀ s ∈ (empty.run events).hub.senders, s.2 < (empty.run events).hub.sent.length := by
  induction events using List.reverseRecOn with
  | nil => exact fun s hs => absurd hs List.not_mem_nil
  | append_singleton events e ih =>
    rw [run, List.foldl_append, ← run]
    intro s hs
    rcases exists_sender_of_step hs with ⟨s', hs', heq⟩ | ⟨hnew, hlen⟩
    · rw [← heq]
      exact Nat.lt_of_lt_of_le (ih s' hs') (length_sent_le_step _ e)
    · exact hnew ▸ hlen

/-- A receiver that is made has no unread notifications. -/
theorem follows_listen {name : String} (hc : x.hub.channelOf? name = some channel)
    (hlt : channel < x.hub.sent.length) (receiver : String) :
    (x.step (.listen name receiver)).Follows receiver channel 0 := by
  have hhub : (x.step (.listen name receiver)).hub = { x.hub with
      receivers := Hub.replace receiver ⟨channel, x.hub.sentOn channel⟩ x.hub.receivers } := by
    simp [step, act, notified, Hub.listen?, hc, Hub.sendAll]
  refine ⟨hhub ▸ hlt, x.hub.sentOn channel, ?_, ?_⟩
  · rw [hhub, lookup_replace, if_pos rfl]
  · rw [hhub]
    rfl

/-- **A channel without senders is silent from then on**, and stays without. -/
theorem closed_run (hlt : channel < x.hub.sent.length) (hclosed : x.isOpen channel = false)
    (receiver : String) (events : List (Event ι)) :
    (notifications x events).count channel = 0 ∧
      ∀ y ∈ polls receiver x events, y.isOpen channel = false := by
  induction events generalizing x with
  | nil => exact ⟨rfl, fun y hy => absurd hy List.not_mem_nil⟩
  | cons e events ih =>
    have hsilent : (x.notified e).count channel = 0 := by
      refine List.count_eq_zero.2 fun hmem => ?_
      rw [isOpen_of_mem_notified hmem] at hclosed
      cases hclosed
    have hclosed' : (x.step e).isOpen channel = false := by
      rw [← Bool.not_eq_true] at hclosed ⊢
      exact fun hopen => hclosed (isOpen_step hlt hopen)
    obtain ⟨hquiet, hpolls⟩ :=
      ih (Nat.lt_of_lt_of_le hlt (length_sent_le_step x e)) hclosed'
    refine ⟨?_, fun y hy => ?_⟩
    · rw [notifications, List.count_append, hsilent, hquiet]
    · rw [polls] at hy
      split at hy
      · rcases List.mem_cons.1 hy with rfl | hy
        · exact hclosed
        · exact hpolls y hy
      · exact hpolls y hy

/-! ### One receiver in a run -/

namespace Follows

omit [DecidableEq ι] in
theorem unread_eq (h : x.Follows receiver channel k) : x.unread receiver = k := by
  obtain ⟨next, hr, hnext⟩ := h.exists_next
  rw [unread, hr]
  show x.hub.sentOn channel - next = k
  omega

/-- A receiver that stays has some number of unread notifications. -/
theorem exists_run (h : x.Follows receiver channel k) (hkeep : Keeps receiver events) :
    ∃ k', (x.run events).Follows receiver channel k' := by
  induction events generalizing x k with
  | nil => exact ⟨k, h⟩
  | cons e events ih => exact ih (h.step hkeep.head) hkeep.tail

/-- What is sent is unread until it is read. -/
theorem run_of_not_asks (h : x.Follows receiver channel k) (hkeep : Keeps receiver events)
    (hasks : ∀ e ∈ events, e.asks receiver = false) :
    (x.run events).Follows receiver channel (k + (notifications x events).count channel) := by
  induction events generalizing x k with
  | nil => exact h
  | cons e events ih =>
    have hstep := h.step hkeep.head
    rw [if_neg (by simp [hasks e List.mem_cons_self])] at hstep
    have hrest := ih hstep hkeep.tail fun d hd => hasks d (List.mem_cons_of_mem e hd)
    rw [notifications, List.count_append, ← Nat.add_assoc]
    exact hrest

/-- **As long as nothing is sent**, a receiver is told of one event for each unread notification
that is kept and of one more for those that are not, and from then on that there is none. -/
theorem getElem?_polls (h : x.Follows receiver channel k) (hkeep : Keeps receiver events)
    (hquiet : (notifications x events).count channel = 0) {i : Nat}
    (hi : (polls receiver x events)[i]? = some y) :
    y.poll? receiver = some (if i < min k (capacity + 1) then .event
      else if y.isOpen channel then .waits else .ended) := by
  induction events generalizing x k i with
  | nil => cases hi
  | cons e events ih =>
    rw [notifications, List.count_append, Nat.add_eq_zero_iff] at hquiet
    have hstep := h.step hkeep.head
    rw [hquiet.1, Nat.add_zero] at hstep
    rw [polls] at hi
    cases hasks : e.asks receiver with
    | false =>
      simp only [hasks, Bool.false_eq_true, if_false] at hi hstep
      exact ih hstep hkeep.tail hquiet.2 hi
    | true =>
      simp only [hasks, if_true] at hi hstep
      cases i with
      | zero =>
        obtain rfl : x = y := by simpa using hi
        rw [h.poll?_eq]
        have hiff : 0 < k ↔ 0 < min k (capacity + 1) := by omega
        simp only [hiff]
      | succ i =>
        rw [ih hstep hkeep.tail hquiet.2 hi]
        have hiff : i < min (min (k - 1) capacity) (capacity + 1) ↔
            i + 1 < min k (capacity + 1) := by
          omega
        simp only [hiff]

/-- **Every event is due to a notification** that was sent, or was unread before. -/
theorem count_answers_le (h : x.Follows receiver channel k) (hkeep : Keeps receiver events) :
    (answers receiver x events).count (some .event) ≤
      k + (notifications x events).count channel := by
  induction events generalizing x k with
  | nil => exact Nat.zero_le _
  | cons e events ih =>
    have hrest := ih (h.step hkeep.head) hkeep.tail
    rw [notifications, List.count_append]
    rw [answers] at hrest ⊢
    rw [polls]
    cases hasks : e.asks receiver with
    | false =>
      simp only [hasks, Bool.false_eq_true, if_false] at hrest ⊢
      omega
    | true =>
      simp only [hasks, if_true] at hrest ⊢
      rw [List.map_cons, h.poll?_eq, List.count_cons]
      by_cases hk : 0 < k
      · simp only [hk, if_true, beq_self_eq_true]
        omega
      · have hne :
            (some (if x.isOpen channel then Poll.waits else .ended) == some .event) = false := by
          cases x.isOpen channel <;> rfl
        simp only [hk, if_false, hne, Bool.false_eq_true]
        omega

/-- **Nothing is missed**: if a receiver is not told of any event, whatever was sent is unread. -/
theorem run_of_not_mem_answers (h : x.Follows receiver channel k) (hkeep : Keeps receiver events)
    (hnone : some .event ∉ answers receiver x events) :
    (x.run events).Follows receiver channel (k + (notifications x events).count channel) := by
  induction events generalizing x k with
  | nil => exact h
  | cons e events ih =>
    have hstep := h.step hkeep.head
    rw [answers, polls] at hnone
    rw [notifications, List.count_append, ← Nat.add_assoc]
    cases hasks : e.asks receiver with
    | false =>
      simp only [hasks, Bool.false_eq_true, if_false] at hnone hstep
      exact ih hstep hkeep.tail hnone
    | true =>
      simp only [hasks, if_true, List.map_cons, List.mem_cons, not_or, h.poll?_eq] at hnone hstep
      have hk : k = 0 := by
        by_contra hk
        exact hnone.1 (by rw [if_pos (Nat.pos_of_ne_zero hk)])
      subst hk
      exact ih hstep hkeep.tail hnone.2

/-- **Once no sender is left**, a receiver gets what is unread, and from then on is told that there
is no more. -/
theorem getElem?_polls_of_closed (h : x.Follows receiver channel k)
    (hclosed : x.isOpen channel = false) (hkeep : Keeps receiver events) {i : Nat}
    (hi : (polls receiver x events)[i]? = some y) :
    y.poll? receiver = some (if i < min k (capacity + 1) then .event else .ended) := by
  obtain ⟨hquiet, hpolls⟩ := closed_run h.lt_length hclosed receiver events
  rw [h.getElem?_polls hkeep hquiet hi, hpolls y (List.mem_of_getElem? hi),
    if_neg Bool.false_ne_true]

end Follows

/-! ### Two receivers -/

/-- Two switchboards differ at most in where one receiver is. -/
structure AgreeBut (other : String) (x y : Switchboard ι) : Prop where
  views : x.views = y.views
  sent : x.hub.sent = y.hub.sent
  senders : x.hub.senders = y.hub.senders
  lookup : ∀ r, r ≠ other → x.hub.receivers.lookup r = y.hub.receivers.lookup r

namespace AgreeBut

variable {other : String}

omit [DecidableEq ι] in
theorem symm (h : AgreeBut other x y) : AgreeBut other y x :=
  ⟨h.views.symm, h.sent.symm, h.senders.symm, fun r hr => (h.lookup r hr).symm⟩

omit [DecidableEq ι] in
theorem trans {z : Switchboard ι} (h : AgreeBut other x y) (h' : AgreeBut other y z) :
    AgreeBut other x z :=
  ⟨h.views.trans h'.views, h.sent.trans h'.sent, h.senders.trans h'.senders,
    fun r hr => (h.lookup r hr).trans (h'.lookup r hr)⟩

omit [DecidableEq ι] in
theorem isAttached_eq (h : AgreeBut other x y) : x.isAttached = y.isAttached := by
  funext c
  rw [isAttached, isAttached, h.views]

omit [DecidableEq ι] in
theorem poll?_eq (h : AgreeBut other x y) (hne : receiver ≠ other) :
    x.poll? receiver = y.poll? receiver := by
  cases hr : y.hub.receivers.lookup receiver with
  | none =>
    have hr' := (h.lookup receiver hne).trans hr
    rw [poll?, poll?, Hub.receive?_of_lookup_eq_none hr, Hub.receive?_of_lookup_eq_none hr']
  | some r =>
    have hr' := (h.lookup receiver hne).trans hr
    rw [poll?, poll?, Hub.receive?_of_lookup hr, Hub.receive?_of_lookup hr', h.isAttached_eq]
    simp only [Hub.sentOn, Hub.hasSender, h.sent, h.senders, Option.map_some]

omit [DecidableEq ι] in
theorem notified_eq (h : AgreeBut other x y) (e : Event ι) : x.notified e = y.notified e := by
  cases e with
  | fire name => rw [notified, notified, Hub.channelOf?, Hub.channelOf?, h.senders]
  | operate view op => rw [notified, notified, h.views]
  | _ => rfl

/-- Asking moves the receiver that asks and no other. -/
theorem act_poll (x : Switchboard ι) (other : String) : AgreeBut other (x.act (.poll other)) x := by
  rw [act]
  cases hr : x.hub.receivers.lookup other with
  | none =>
    rw [Hub.receive?_of_lookup_eq_none hr]
    exact ⟨rfl, rfl, rfl, fun _ _ => rfl⟩
  | some r =>
    rw [Hub.receive?_of_lookup hr]
    exact ⟨rfl, rfl, rfl, fun q hq => (lookup_replace _ _ _ _).trans (if_neg hq)⟩

omit [DecidableEq ι] in
theorem onView (h : AgreeBut other x y) (view : Nat)
    (f : View ι Session.Listener → View ι Session.Listener) :
    AgreeBut other (x.onView view f) (y.onView view f) :=
  ⟨congrArg (·.modify view f) h.views, h.sent, h.senders, h.lookup⟩

omit [DecidableEq ι] in
/-- Putting a receiver somewhere comes to the same in both. -/
theorem replace_receiver (h : AgreeBut other x y) (name : String)
    (r : Receiver) :
    AgreeBut other { x with hub := { x.hub with receivers := Hub.replace name r x.hub.receivers } }
      { y with hub := { y.hub with receivers := Hub.replace name r y.hub.receivers } } := by
  refine ⟨h.views, h.sent, h.senders, fun q hq => ?_⟩
  show List.lookup q (Hub.replace _ _ _) = List.lookup q (Hub.replace _ _ _)
  rw [lookup_replace, lookup_replace, h.lookup q hq]

theorem act (h : AgreeBut other x y) (e : Event ι) : AgreeBut other (x.act e) (y.act e) := by
  have hchannel : ∀ name, x.hub.channelOf? name = y.hub.channelOf? name := fun name => by
    rw [Hub.channelOf?, Hub.channelOf?, h.senders]
  have hsent : ∀ c, x.hub.sentOn c = y.hub.sentOn c := fun c => by
    rw [Hub.sentOn, Hub.sentOn, h.sent]
  have hsender : ∀ c, x.hub.hasSender c = y.hub.hasSender c := fun c => by
    rw [Hub.hasSender, Hub.hasSender, h.senders]
  cases e with
  | create name =>
    refine ⟨h.views, ?_, ?_, h.lookup⟩
    · exact congrArg (· ++ [0]) h.sent
    · simp only [Switchboard.act, Hub.create, h.senders, h.sent]
  | clone name copy =>
    simp only [Switchboard.act, Hub.clone?, hchannel]
    cases y.hub.channelOf? name with
    | none => exact h
    | some c => exact ⟨h.views, h.sent, congrArg (Hub.replace copy c) h.senders, h.lookup⟩
  | drop name => exact ⟨h.views, h.sent, congrArg (List.filter _) h.senders, h.lookup⟩
  | listen name receiver =>
    simp only [Switchboard.act, Hub.listen?, hchannel]
    cases y.hub.channelOf? name with
    | none => exact h
    | some c =>
      simp only [hsent]
      exact h.replace_receiver receiver _
  | fire name => exact h
  | openView tree palette => exact ⟨congrArg (· ++ _) h.views, h.sent, h.senders, h.lookup⟩
  | closeView view => exact ⟨congrArg (·.eraseIdx view) h.views, h.sent, h.senders, h.lookup⟩
  | attach view id name =>
    simp only [Switchboard.act, hchannel]
    split
    · exact h.onView view _
    · exact h
  | poll receiver =>
    by_cases hother : receiver = other
    · subst hother
      exact (act_poll x receiver).trans (h.trans (act_poll y receiver).symm)
    · simp only [Switchboard.act]
      cases hr : y.hub.receivers.lookup receiver with
      | none =>
        have hr' := (h.lookup receiver hother).trans hr
        rw [Hub.receive?_of_lookup_eq_none hr, Hub.receive?_of_lookup_eq_none hr']
        exact h
      | some r =>
        have hr' := (h.lookup receiver hother).trans hr
        rw [Hub.receive?_of_lookup hr, Hub.receive?_of_lookup hr', h.isAttached_eq]
        simp only [hsent, hsender]
        exact h.replace_receiver receiver _
  | _ => exact h.onView _ _

theorem step (h : AgreeBut other x y) (e : Event ι) : AgreeBut other (x.step e) (y.step e) := by
  have hact := h.act e
  rw [Switchboard.step, Switchboard.step, h.notified_eq]
  refine ⟨hact.views, ?_, ?_, fun r hr => ?_⟩
  · rw [Hub.sent_sendAll, Hub.sent_sendAll, hact.sent]
  · rw [Hub.senders_sendAll, Hub.senders_sendAll, hact.senders]
  · rw [Hub.receivers_sendAll, Hub.receivers_sendAll, hact.lookup r hr]

/-- Asking leaves a switchboard in agreement with all that it agreed with. -/
theorem step_of_asks (h : AgreeBut other x y) (he : e.asks other = true) :
    AgreeBut other (x.step e) y := by
  cases e with
  | poll receiver =>
    obtain rfl : receiver = other := of_decide_eq_true he
    exact (act_poll x receiver).trans h
  | _ => cases he

/-- **Polls of one receiver make no difference to what another is told.** -/
theorem answers_filter (h : AgreeBut other x y) (hne : receiver ≠ other) :
    answers receiver x events = answers receiver y (events.filter fun e => !e.asks other) := by
  induction events generalizing x y with
  | nil => rfl
  | cons e events ih =>
    cases hother : e.asks other with
    | true =>
      have hasks : e.asks receiver = false := by
        cases e with
        | poll r =>
          obtain rfl : r = other := of_decide_eq_true hother
          exact decide_eq_false (Ne.symm hne)
        | _ => rfl
      rw [List.filter_cons_of_neg (by simp [hother]), answers, polls, if_neg (by simp [hasks])]
      exact ih (h.step_of_asks hother)
    | false =>
      rw [List.filter_cons_of_pos (by simp [hother]), answers, answers, polls, polls]
      have hrest := ih (h.step e)
      split
      · rw [List.map_cons, List.map_cons, h.poll?_eq hne]
        exact congrArg _ hrest
      · exact hrest

end AgreeBut

/-! ### The contract of broadcasting -/

/-- **Receivers hear of changes.** A receiver is made from a sender, and lives through any events
but those that put another in its place. It has not had more events than there were notifications.
With `k` notifications unread, which are those that were sent since it was made or had none unread,
it has `min k 65` events before it, and behind them waits as long as the channel has a sender;
without one it is told for good that there is no more, and not before. What it is told does not
depend on when and how often others ask. And if it has to wait although something was sent, it has
had an event since. -/
theorem receivers_hear_of_changes {before since : List (Event ι)} {name receiver : String}
    {channel : Nat} (hchannel : (empty.run before).hub.channelOf? name = some channel)
    (hsince : Keeps receiver since) :
    let made := (empty.run before).step (.listen name receiver)
    let x := made.run since
    (answers receiver made since).count (some .event) ≤ (notifications made since).count channel ∧
    made.unread receiver = 0 ∧
    (∀ later, Keeps receiver later → (∀ e ∈ later, e.asks receiver = false) →
      (x.run later).unread receiver =
        x.unread receiver + (notifications x later).count channel) ∧
    (∀ later, Keeps receiver later → (notifications x later).count channel = 0 →
      ∀ i y, (polls receiver x later)[i]? = some y →
        y.poll? receiver = some (if i < min (x.unread receiver) 65 then .event
          else if y.isOpen channel then .waits else .ended)) ∧
    (x.hub.receive? x.isAttached receiver none).map (·.1) =
      some ⟨min (x.unread receiver) 65, if x.isOpen channel then .pending else .closed,
        x.hub.sentOn channel⟩ ∧
    (x.isOpen channel = false → ∀ later, Keeps receiver later →
      ∀ i y, (polls receiver x later)[i]? = some y →
        y.poll? receiver = some (if i < min (x.unread receiver) 65 then .event else .ended)) ∧
    (x.poll? receiver = some .ended → x.unread receiver = 0 ∧ x.isOpen channel = false) ∧
    (∀ events other, other ≠ receiver →
      answers receiver (empty : Switchboard ι) events =
        answers receiver empty (events.filter fun e => !e.asks other)) ∧
    (∀ later, Keeps receiver later → channel ∈ notifications x later →
      (x.run later).poll? receiver = some .waits → some .event ∈ answers receiver x later) := by
  intro made x
  have hlt : channel < (empty.run before).hub.sent.length :=
    sender_lt_run before _ (mem_of_lookup hchannel)
  have hmade : made.Follows receiver channel 0 := follows_listen hchannel hlt receiver
  obtain ⟨k, hx⟩ : ∃ k, x.Follows receiver channel k := hmade.exists_run hsince
  have hk : x.unread receiver = k := hx.unread_eq
  rw [hk]
  refine ⟨?_, hmade.unread_eq, ?_, ?_, ?_, ?_, ?_, ?_, ?_⟩
  · simpa using hmade.count_answers_le hsince
  · intro later hlater hasks
    exact (hx.run_of_not_asks hlater hasks).unread_eq
  · intro later hlater hquiet i y hi
    exact hx.getElem?_polls hlater hquiet hi
  · obtain ⟨next, hr, hnext⟩ := hx.exists_next
    have hle : next ≤ x.hub.sentOn channel := by omega
    have hunread : x.hub.sentOn channel - next = k := by omega
    rw [Hub.receive?_of_lookup hr, Option.map_some]
    show some (drain (x.hub.sentOn channel) (x.isOpen channel) none 0 next) = _
    rw [drain_none _ _ hle, hunread, Nat.zero_add, capacity]
  · intro hclosed later hlater i y hi
    exact hx.getElem?_polls_of_closed hclosed hlater hi
  · intro hended
    rw [hx.poll?_eq] at hended
    have hzero : ¬0 < k := fun hpos => by
      rw [if_pos hpos] at hended
      cases hended
    rw [if_neg hzero] at hended
    refine ⟨Nat.eq_zero_of_not_pos hzero, ?_⟩
    cases hopen : x.isOpen channel with
    | false => rfl
    | true =>
      rw [hopen] at hended
      cases hended
  · intro events other hne
    exact AgreeBut.answers_filter ⟨rfl, rfl, rfl, fun _ _ => rfl⟩ hne.symm
  · intro later hlater hsent hwaits
    by_contra hnone
    have hrun := hx.run_of_not_mem_answers hlater hnone
    have hpos : 0 < k + (notifications x later).count channel :=
      Nat.add_pos_right k (List.count_pos_iff.2 hsent)
    rw [hrun.poll?_eq, if_pos hpos] at hwaits
    cases hwaits

/-- Seventy notifications, one of them from a view. The receiver gets one event for the first six
and the 64 that are kept, and waits, since a sender is left in the view; the other receiver is at
another place, and does not matter. -/
theorem receivers_hear_of_changes_sample :
    let before : List (Event Nat) :=
      [.create "ui", .openView Tree.sample .default, .attach 0 1 "ui", .listen "ui" "log",
        .fire "ui", .poll "log"]
    let since := .operate 0 .clearAll :: List.replicate 69 (.fire "ui") ++ [.poll "log", .drop "ui"]
    let made := (empty.run before).step (.listen "ui" "status")
    let x := made.run since
    (x.hub.receive? x.isAttached "status" none).map (·.1) = some ⟨65, .pending, 71⟩ ∧
      (notifications made since).count 0 = 70 ∧ x.hub.channelOf? "ui" = none := by
  intro before since made x
  have hchannel : (empty.run before).hub.channelOf? "ui" = some 0 := by decide +kernel
  have hsince : Keeps "status" since := by
    simp [Keeps, since, Event.renews, or_imp, forall_and]
  obtain ⟨_, _, _, _, hread, _⟩ := receivers_hear_of_changes hchannel hsince
  have hunread : x.unread "status" = 70 := by decide +kernel
  have hopen : x.isOpen 0 = true := by decide +kernel
  have hsent : x.hub.sentOn 0 = 71 := by decide +kernel
  rw [hunread, hopen, hsent] at hread
  exact ⟨hread, by decide +kernel, by decide +kernel⟩

end Switchboard

end TokenHighlight
