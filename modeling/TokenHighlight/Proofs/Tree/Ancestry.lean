import Mathlib.Data.List.Chain
import TokenHighlight.Proofs.Tree.DocumentOrder

/-!
# Up and down

The walk down from a node goes through lists of children, the walk up through links to parents.
That the two are about one and the same tree is what a search relies on that goes up from a token
and looks at all tokens below each group on the way: the token itself is always among them, what
was below the last group is below the next one in one piece, and at the end the whole document has
been looked at.

## Main results

* `Tree.WellFormed.induction_parent` — induction from the root
* `Tree.WellFormed.isChain_ancestors`, `Tree.WellFormed.climb_eq_ancestors` — the walk up goes from
  children to parents until there is no parent, however many steps it is given
* `Tree.WellFormed.pairwise_flatten_ancestors` — the tokens below what the walk up comes to
* `Tree.walks_agree` — the whole contract of the two walks
-/

namespace TokenHighlight

namespace Tree

variable {t : Tree}

namespace WellFormed

/-- Induction from the root: what holds of nodes without parent and of numbers that name nothing,
and what children inherit from their parents, holds of every number. -/
theorem induction_parent (h : t.WellFormed) {P : NodeId → Prop}
    (top : ∀ id, t.parent? id = none → P id)
    (below : ∀ id p, t.parent? id = some p → P p → P id) (id : NodeId) : P id := by
  induction id using Nat.strongRecOn with
  | ind id ih =>
    cases hp : t.parent? id with
    | none => exact top id hp
    | some p => exact below id p hp (ih p (h.lt_of_parent? hp))

/-! ### The walk up -/

/-- Each node on the walk up is a child of the next one, which is its parent. -/
theorem isChain_ancestors (h : t.WellFormed) (id : NodeId) :
    (id :: t.ancestors id).IsChain fun child p =>
      child ∈ t.children p ∧ t.parent? child = some p := by
  induction id using h.induction_parent with
  | top id hp =>
    rw [ancestors_eq_nil hp]
    exact List.isChain_singleton id
  | below id p hp ih =>
    rw [h.ancestors_eq hp]
    exact List.isChain_cons_cons.2 ⟨⟨h.mem_children_iff.2 hp, hp⟩, ih⟩

/-- The walk up ends for want of a parent and not for want of steps. -/
theorem climb_eq_ancestors (h : t.WellFormed) (id : NodeId) {steps : Nat}
    (hsteps : t.size ≤ steps) : t.climb steps id = t.ancestors id := by
  cases hp : t.parent? id with
  | none => rw [climb_of_parent?_eq_none hp, ancestors_eq_nil hp]
  | some p =>
    have hid : id ≤ t.size := Nat.le_of_lt (lt_size_of_parent? hp)
    exact h.climb_eq (Nat.le_trans hid hsteps) hid

theorem nodup_ancestors (h : t.WellFormed) (id : NodeId) : (t.ancestors id).Nodup :=
  (List.pairwise_cons.1 (h.pairwise_ancestors id)).2.imp Nat.ne_of_gt

/-- Whatever the walk up comes to next has below it all that was below, and in one piece. -/
theorem pairwise_flatten_ancestors (h : t.WellFormed) (id : NodeId) :
    ((id :: t.ancestors id).map t.flatten).Pairwise (· <:+: ·) := by
  rw [List.pairwise_map]
  induction id using h.induction_parent with
  | top id hp =>
    rw [ancestors_eq_nil hp]
    exact List.pairwise_singleton _ _
  | below id p hp ih =>
    refine List.pairwise_cons.2 ⟨fun a ha => h.flatten_isInfix (List.mem_cons_of_mem id ha), ?_⟩
    rw [h.ancestors_eq hp]
    exact ih

/-- The last group that the walk up from a token comes to has the whole document below it. -/
theorem getLast?_flatten_ancestors (h : t.WellFormed) {id : NodeId}
    (htok : (t.token? id).isSome = true) :
    ((t.ancestors id).map t.flatten).getLast? = some t.tokens := by
  have hid : id < t.size :=
    contains_iff.1 (by rw [contains_eq_isGroup_or_isSome, htok, Bool.or_true])
  have hne : id ≠ root := by
    rintro rfl
    rw [token?_of_isGroup h.isGroup_root] at htok
    cases htok
  rw [List.getLast?_map, h.getLast?_ancestors hid hne]
  rfl

end WellFormed

/-- **The walks up and down agree in every tree that comes about.** A token is listed below itself,
below each node that the walk up from it comes to, and below no other. The walk up goes from child
to parent, comes to no node twice and ends where there is no parent, with as many steps as there are
nodes. The tokens below what it comes to are segments of the document, each with the one before in
it, and the last is the whole document. -/
theorem walks_agree (edits : List Edit) :
    let t := edited edits
    (∀ id g, (t.token? id).isSome = true →
      (id ∈ t.flatten g ↔ g = id ∨ g ∈ t.ancestors id)) ∧
    (∀ id, (t.ancestors id).Nodup ∧
      (id :: t.ancestors id).IsChain (fun child p =>
        child ∈ t.children p ∧ t.parent? child = some p) ∧
      ∀ steps, t.size ≤ steps → t.climb steps id = t.ancestors id) ∧
    (∀ id, ((id :: t.ancestors id).map t.flatten).Pairwise (· <:+: ·) ∧
      ∀ g ∈ id :: t.ancestors id, t.flatten g <:+: t.flatten root) ∧
    (∀ id, (t.token? id).isSome = true →
      ((t.ancestors id).map t.flatten).getLast? = some (t.flatten root)) := by
  intro t
  have h : t.WellFormed := wellFormed_edited edits
  refine ⟨fun id g htok => ?_, fun id => ⟨h.nodup_ancestors id, h.isChain_ancestors id, ?_⟩,
    fun id => ⟨h.pairwise_flatten_ancestors id, fun g _ => h.flatten_isInfix_tokens g⟩,
    fun id htok => h.getLast?_flatten_ancestors htok⟩
  · rw [h.mem_flatten_iff, htok, List.mem_cons]
    exact and_iff_right rfl
  · exact fun steps hsteps => h.climb_eq_ancestors id hsteps

end Tree

end TokenHighlight
