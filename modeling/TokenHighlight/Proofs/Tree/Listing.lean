import TokenHighlight.Proofs.Tree.DocumentOrder

/-!
# Listing by recursion

What is below a node is most plainly said by recursion: a token is below itself, below a group is
what is below its children, and below a number that names nothing there is nothing. The walk of
`Tree.drain` has a stack instead, and looks up whatever number is on top of it.

`Lists` is that recursion as a relation, so that it can be stated of any tree, also of one in which
children lead around in a circle. There it relates nothing to the nodes on the circle. In a tree
that comes about by edits it relates every number to one list, and that is what the walk gives.

## Main definitions

* `Tree.Lists` — the tokens below a node, by recursion over children

## Main results

* `Tree.WellFormed.lists_iff` — the walk gives what the recursion gives
* `Tree.WellFormed.drain_eq_flatten` — the walk comes to its end and meets no foreign number
* `Tree.walk_lists_document` — the whole contract of reading a tree in document order
-/

namespace TokenHighlight

namespace Tree

/-- The tokens below a node from left to right, by recursion over the children of groups. -/
inductive Lists (t : Tree) : NodeId → List NodeId → Prop
  | token {id : NodeId} {tok : Token} (h : t.token? id = some tok) : Lists t id [id]
  | group {id : NodeId} (h : t.isGroup id = true) (below : NodeId → List NodeId)
      (hbelow : ∀ c ∈ t.children id, Lists t c (below c)) :
      Lists t id ((t.children id).flatMap below)
  | foreign {id : NodeId} (h : t.contains id = false) : Lists t id []

variable {t : Tree}

namespace WellFormed

/-- The recursion comes to an end at every number, with what the walk gives. -/
theorem lists_flatten (h : t.WellFormed) (id : NodeId) : t.Lists id (t.flatten id) := by
  induction id using h.induction_children with
  | token id tok ht =>
    rw [flatten_eq_singleton_of_token? ht]
    exact .token ht
  | group id hg ih =>
    rw [h.flatten_eq_flatMap hg]
    exact .group hg t.flatten ih
  | foreign id hf =>
    rw [flatten_eq_nil_of_not_contains hf]
    exact .foreign hf

/-- **The walk gives what the recursion gives**, and nothing else is given by the recursion. -/
theorem lists_iff (h : t.WellFormed) {id : NodeId} {out : List NodeId} :
    t.Lists id out ↔ out = t.flatten id := by
  refine ⟨fun hl => ?_, fun ho => ho ▸ h.lists_flatten id⟩
  induction hl with
  | token ht => exact (flatten_eq_singleton_of_token? ht).symm
  | group hg below _ ih => rw [h.flatten_eq_flatMap hg, List.flatMap_congr ih]
  | foreign hf => exact (flatten_eq_nil_of_not_contains hf).symm

/-- **The walk down comes to its end.** As many steps as there are nodes are enough for it, and no
number that it looks up is foreign. It starts with an empty stack if its own number is foreign. -/
theorem drain_eq_flatten (h : t.WellFormed) (id : NodeId) {steps : Nat} (hsteps : t.size ≤ steps) :
    t.drain steps (if t.contains id then [id] else []) = some (t.flatten id) := by
  cases hc : t.contains id with
  | true => exact drain_mono hsteps (h.drain_singleton (contains_iff.1 hc))
  | false =>
    rw [flatten_eq_nil_of_not_contains hc]
    cases steps <;> rfl

/-- Document order lists a token once and a group never. -/
theorem count_tokens (h : t.WellFormed) (id : NodeId) :
    t.tokens.count id = if (t.token? id).isSome then 1 else 0 := by
  split
  · next ht => exact List.count_eq_one_of_mem h.nodup_tokens (h.mem_tokens_iff.2 ht)
  · next ht => exact List.count_eq_zero_of_not_mem fun hm => ht (h.mem_tokens_iff.1 hm)

end WellFormed

/-- **Every tree that comes about can be read in document order.** The walk down from any number
comes to its end without looking up a foreign one, and lists what the recursion over children lists.
From the root it lists every token once and no group; from any other node it lists a segment of
that. -/
theorem walk_lists_document (edits : List Edit) :
    let t := edited edits
    (∀ id steps, t.size ≤ steps →
      t.drain steps (if t.contains id then [id] else []) = some (t.flatten id)) ∧
    (∀ id out, t.Lists id out ↔ out = t.flatten id) ∧
    (∀ id, (t.flatten root).count id = if (t.token? id).isSome then 1 else 0) ∧
    (∀ id, t.flatten id <:+: t.flatten root) := by
  intro t
  have h : t.WellFormed := wellFormed_edited edits
  exact ⟨fun id _ hsteps => h.drain_eq_flatten id hsteps, fun _ _ => h.lists_iff, h.count_tokens,
    h.flatten_isInfix_tokens⟩

end Tree

end TokenHighlight
