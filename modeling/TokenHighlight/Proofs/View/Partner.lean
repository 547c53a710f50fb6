import TokenHighlight.Proofs.Highlight.Selecting
import TokenHighlight.Proofs.Tree.Braces
import TokenHighlight.Proofs.View.Notification

/-!
# Asking for the partner of a brace

The partner of a brace is the one thing that an operation may fail to find. The number that is asked
about may be no brace; the host may know no partner; and what the host names may be a group, or
nothing at all. In all of these cases the view stays as it is and nobody is notified: whether there
is a partner is settled before anything is written.

Where there is a partner, it is all that changes. The host may well name the token that was asked
about. The lookup by text never does: a brace that opens in the direction of the search does not
close in it, and the search comes to rest at a closing one.

## Main results

* `Highlights.sameAt_highlightBrace` — what is no partner stays as it is
* `View.perform_highlightBrace_of_none` — without a partner nothing happens
* `View.partner_alone_changes` — the whole contract of asking for a partner
-/

namespace TokenHighlight

namespace Highlights

variable {h : Highlights} {lookup : BraceLookup} {id u x : NodeId}

/-- What is no partner stays as it is. -/
theorem sameAt_highlightBrace (hx : ¬lookup.IsPartner h.tree id x) (c : Color) :
    h.SameAt (h.highlightBrace lookup id c).1 x := by
  have hpartner : h.bracePartner? lookup id ≠ some x := mt bracePartner?_eq_some_iff.1 hx
  rw [SameAt, token?_highlightBrace, isHighlighted_highlightBrace, if_neg hpartner,
    decide_eq_false hpartner, Bool.or_false]
  exact ⟨rfl, rfl⟩

/-- The partner is displayed, and in the set. -/
theorem highlightBrace_partner (hu : lookup.IsPartner h.tree id u) (c : Color) :
    (∃ tok, h.tree.token? u = some tok ∧ (h.highlightBrace lookup id c).1.tree.token? u =
      some { tok with highlight := some c, matching := true }) ∧
    (h.highlightBrace lookup id c).1.isHighlighted u = true := by
  have hpartner : h.bracePartner? lookup id = some u := bracePartner?_eq_some_iff.2 hu
  obtain ⟨tok, htok⟩ := Option.isSome_iff_exists.1 hu.2.2
  refine ⟨⟨tok, htok, ?_⟩, ?_⟩
  · rw [token?_highlightBrace, if_pos hpartner, htok]
    rfl
  · rw [isHighlighted_highlightBrace, decide_eq_true hpartner, Bool.or_true]

end Highlights

/-- There is at most one partner, whatever the lookup. -/
theorem BraceLookup.IsPartner.eq {lookup : BraceLookup} {t : Tree} {id u x : NodeId}
    (hu : lookup.IsPartner t id u) (hx : lookup.IsPartner t id x) : x = u := by
  have hsome : some x = some u := hx.2.1.symm.trans hu.2.1
  exact Option.some.inj hsome

namespace View

variable {ι α : Type} (v : View ι α) (lookup : BraceLookup) (id : NodeId) (c : Color)

/-! ### The view behind it, and the reply -/

theorem view_highlightBrace :
    (v.perform (.highlightBrace id c lookup)).view =
      { v with highlights := (v.highlights.highlightBrace lookup id c).1 } :=
  v.perform_view _

theorem reply_highlightBrace :
    (v.perform (.highlightBrace id c lookup)).reply =
      .partner (v.highlights.bracePartner? lookup id) := by
  rw [perform_reply]
  show Reply.partner (v.highlights.highlightBrace lookup id c).2 = _
  rw [Highlights.highlightBrace]
  cases v.highlights.bracePartner? lookup id <;> rfl

variable {v lookup id c} {u : NodeId}

theorem reply_highlightBrace_eq_some_iff :
    (v.perform (.highlightBrace id c lookup)).reply = .partner (some u) ↔
      lookup.IsPartner v.tree id u := by
  rw [reply_highlightBrace, Reply.partner.injEq]
  exact Highlights.bracePartner?_eq_some_iff

/-- **Without a partner nothing happens**: the view is the one that was there, and nobody is
notified. -/
theorem perform_highlightBrace_of_none
    (hreply : (v.perform (.highlightBrace id c lookup)).reply = .partner none) :
    v.perform (.highlightBrace id c lookup) = ⟨v, .partner none, []⟩ := by
  have hnone : v.highlights.bracePartner? lookup id = none := by
    rw [reply_highlightBrace, Reply.partner.injEq] at hreply
    exact hreply
  simp only [perform, quietly, Operation.run, Highlights.highlightBrace, hnone]

theorem called_highlightBrace (hu : lookup.IsPartner v.tree id u) :
    (v.perform (.highlightBrace id c lookup)).called = v.listeners.called := by
  rw [called_perform, Event.isHeard, reply_highlightBrace_eq_some_iff.2 hu]
  exact if_pos rfl

/-! ### The contract of asking for a partner -/

/-- **The partner of a brace is all that changes, and without one nothing does**, in any state of
any tree, whatever the host answers. The reply names a partner exactly if what was asked about is a
brace and the host names a token for it. Then that token takes the color, is flagged and comes into
the set; no other token changes, nothing else of the tree, the set and the palette, and every
listener hears of it once. If the reply names none, the view stays as it is and nobody hears of
anything. With the lookup by text the token that was asked about is never the partner, and so it
stays as it is. -/
theorem partner_alone_changes (v : View ι α) (lookup : BraceLookup) (id : NodeId) (c : Color) :
    let asked := v.perform (.highlightBrace id c lookup)
    let g := asked.view.highlights
    let byText := v.perform (.highlightBrace id c .byText)
    (∃ u?, asked.reply = .partner u?) ∧
    (asked.reply = .partner none → asked.view = v ∧ asked.called = []) ∧
    (∀ u, asked.reply = .partner (some u) ↔ lookup.IsPartner v.tree id u) ∧
    (∀ u, asked.reply = .partner (some u) →
      (∃ tok, v.tree.token? u = some tok ∧
        g.tree.token? u = some { tok with highlight := some c, matching := true }) ∧
      g.isHighlighted u = true ∧ (∀ x, x ≠ u → v.highlights.SameAt g x) ∧
      g.tree.cleared = v.tree.cleared ∧ g.palette = v.highlights.palette ∧
      asked.view.listeners = v.listeners ∧ asked.called = v.listeners.called) ∧
    byText.reply ≠ .partner (some id) ∧ v.highlights.SameAt byText.view.highlights id := by
  intro asked g byText
  have hself : ¬BraceLookup.byText.IsPartner v.tree id id := by
    rintro ⟨_, hpartner, _⟩
    exact Tree.ne_of_partnerByText? hpartner rfl
  refine ⟨⟨_, reply_highlightBrace v lookup id c⟩, ?_,
    fun u => reply_highlightBrace_eq_some_iff, ?_, mt reply_highlightBrace_eq_some_iff.1 hself, ?_⟩
  · intro hreply
    have hasked : asked = ⟨v, .partner none, []⟩ := perform_highlightBrace_of_none hreply
    rw [hasked]
    exact ⟨rfl, rfl⟩
  · intro u hreply
    have hu : lookup.IsPartner v.tree id u := reply_highlightBrace_eq_some_iff.1 hreply
    have hview := view_highlightBrace v lookup id c
    have hg : g = (v.highlights.highlightBrace lookup id c).1 := congrArg View.highlights hview
    obtain ⟨htok, hset⟩ := Highlights.highlightBrace_partner hu c
    rw [hg, show asked.view = _ from hview]
    refine ⟨htok, hset, ?_, (Highlights.changes_highlightBrace _ lookup id c).cleared_eq,
      Highlights.palette_highlightBrace _ lookup id c, rfl, called_highlightBrace hu⟩
    intro x hx
    exact Highlights.sameAt_highlightBrace (fun hpartner => hx (hu.eq hpartner)) c
  · show v.highlights.SameAt (v.perform _).view.highlights id
    rw [view_highlightBrace]
    exact Highlights.sameAt_highlightBrace hself c

/-- The opening brace of a block has a partner, and a comma has none. -/
example :
    let v : View Nat String := start Tree.sample .default
    (v.perform (.highlightBrace 7 (.rgb 200 0 0) .byText)).reply = .partner (some 12) ∧
      (v.perform (.highlightBrace 13 (.rgb 200 0 0) .byText)).reply = .partner none := by
  decide +kernel

end View

end TokenHighlight
