import TokenHighlight.Proofs.Tree.Display
import TokenHighlight.Tree.Spec

/-!
# Trees that are described

A described tree grows by plain additions. Each of them goes to the root or to a group that was
added on the way, and a group stays one, so no addition can fail: there is a tree for every
description whose root is a group, and it is like any other tree that comes about.

## Main definitions

* `Tree.GrowsTo` — what a tree keeps when it grows by plain additions

## Main results

* `Spec.exists_addTo`, `Spec.exists_addAllTo` — appending a description succeeds
* `Tree.exists_ofSpec` — the tree of a description
-/

namespace TokenHighlight

namespace Tree

variable {a b c : Tree}

/-- What a tree keeps when it grows by plain additions: it still comes about by edits, it is still
plain, and its groups are still groups. -/
structure GrowsTo (a b : Tree) : Prop where
  reachable : a.Reachable → b.Reachable
  isPlain : a.IsPlain → b.IsPlain
  isGroup : ∀ id, a.isGroup id = true → b.isGroup id = true

theorem GrowsTo.refl (a : Tree) : a.GrowsTo a :=
  ⟨id, id, fun _ => id⟩

theorem GrowsTo.trans (hab : a.GrowsTo b) (hbc : b.GrowsTo c) : a.GrowsTo c :=
  ⟨hbc.reachable ∘ hab.reachable, hbc.isPlain ∘ hab.isPlain,
    fun id => hbc.isGroup id ∘ hab.isGroup id⟩

/-- A group stays one when the tree grows. -/
theorem isGroup_grown {x : Addition} {id : NodeId} (hgroup : a.isGroup x.parent = true)
    (hid : a.isGroup id = true) : (a.grown x).isGroup id = true := by
  have hlt : id < a.size := contains_iff.1 (contains_of_isGroup hid)
  rw [(extends_grown hgroup).isGroup, if_neg (Nat.ne_of_lt hlt), hid]

/-- A plain addition under a group succeeds. A group that is added is one. -/
theorem exists_run_of_isGroup {x : Addition} (hgroup : a.isGroup x.parent = true) (hx : x.IsPlain) :
    ∃ id b, x.run a = .ok (id, b) ∧ a.GrowsTo b ∧ b.isGroup id = x.token?.isNone := by
  have hadd : a.add x = a.grown x := add_of_isGroup hgroup
  have hextends : Extends a (a.grown x) x := extends_grown hgroup
  refine ⟨a.size, a.grown x, Addition.run_eq_ok_iff.2 ⟨hgroup, rfl, rfl⟩, ⟨?_, ?_, ?_⟩, ?_⟩
  · exact fun h => hadd ▸ h.edit (.add x)
  · exact fun h => hadd ▸ h.add hx
  · exact fun id => isGroup_grown hgroup
  · rw [hextends.isGroup, if_pos rfl]

end Tree

namespace Spec

mutual

/-- Appending a description to a group succeeds. -/
theorem exists_addTo (s : Spec) {t : Tree} {parent : NodeId} (h : t.isGroup parent = true) :
    ∃ t', s.addTo t parent = .ok t' ∧ t.GrowsTo t' := by
  match s with
  | .token data =>
    obtain ⟨id, t', hrun, hgrows, _⟩ :=
      Tree.exists_run_of_isGroup (x := .token parent (.plain data)) h
        (by rintro tok ⟨⟩; exact ⟨rfl, rfl⟩)
    refine ⟨t', ?_, hgrows⟩
    rw [addTo, show t.addToken parent (.plain data) = _ from hrun]
    rfl
  | .group children =>
    obtain ⟨id, t', hrun, hgrows, hgroup⟩ :=
      Tree.exists_run_of_isGroup (x := .group parent) h (by rintro tok ⟨⟩)
    obtain ⟨t'', hall, hgrows'⟩ := exists_addAllTo children hgroup
    refine ⟨t'', ?_, hgrows.trans hgrows'⟩
    rw [addTo, show t.addGroup parent = _ from hrun]
    exact hall

/-- Appending several descriptions to a group succeeds. -/
theorem exists_addAllTo (specs : List Spec) {t : Tree} {parent : NodeId}
    (h : t.isGroup parent = true) : ∃ t', addAllTo t parent specs = .ok t' ∧ t.GrowsTo t' := by
  match specs with
  | [] => exact ⟨t, rfl, Tree.GrowsTo.refl t⟩
  | s :: rest =>
    obtain ⟨t', hfirst, hgrows⟩ := exists_addTo s h
    obtain ⟨t'', hrest, hgrows'⟩ := exists_addAllTo rest (hgrows.isGroup parent h)
    refine ⟨t'', ?_, hgrows.trans hgrows'⟩
    rw [addAllTo, hfirst]
    exact hrest

end

end Spec

namespace Tree

/-- **The tree of a description**, provided that its root is a group. -/
theorem exists_ofSpec (children : List Spec) :
    ∃ t, ofSpec (.group children) = .ok t ∧ t.Reachable ∧ t.IsPlain := by
  obtain ⟨t, ht, hgrows⟩ := @Spec.exists_addAllTo children .empty root rfl
  exact ⟨t, ht, hgrows.reachable reachable_empty, hgrows.isPlain isPlain_empty⟩

end Tree

end TokenHighlight
