import TokenHighlight.Proofs.Tree.Described
import TokenHighlight.Proofs.Tree.DocumentOrder
import TokenHighlight.Proofs.Tree.Structure

/-!
# Numbers of described nodes

The tree of a description has a node for each part of the description, and nothing else. Parts are
listed in document order, a group in front of what lies in it; the number of a node is the place of
its part in this list. So a group with number `n` has its first child at `n + 1`, and each further
child behind all parts of the one before.

That is what `Placed` says of a single node, and it is local: it names a node and the places of its
children, and does not follow them. What is appended later to a group around the node leaves it
alone, so it is proved along the way and still holds of the finished tree. Reading the tree back,
document order and the size all follow from it.

## One stack of groups

A description is appended by recursion here. `Tree.appendPending` does it without, by a stack of the
groups that are being filled, each with what is still to come in it. It comes to its end because
each turn takes one part or one group off the stack, and it gives the same tree.

## Main definitions

* `Spec.parts` — what is described, node by node, in document order
* `Tree.Placed` — a node is what a description says, its children at their places
* `Tree.Reads` — what a tree describes, read back by recursion
* `Tree.appendPending` — appending with a stack

## Main results

* `Spec.placed_addTo`, `Spec.placed_addAllTo` — where parts are placed
* `Tree.PlacedFrom.reads`, `Tree.Reads.unique` — reading back
* `Tree.PlacedFrom.flatten_eq` — document order is the order of numbers
* `Spec.appendPending_addAllTo` — the stack comes to what the recursion comes to
* `Tree.ofSpec_reads_back` — the whole contract of making a tree of a description
-/

namespace TokenHighlight

namespace Spec

/-! ### Parts -/

mutual

/-- What is described, node by node, in document order: a group comes in front of what is in it. -/
def parts : Spec → List Spec
  | .token data => [.token data]
  | .group children => .group children :: partsAll children

/-- The parts of several descriptions, one after the other. -/
def partsAll : List Spec → List Spec
  | [] => []
  | s :: rest => s.parts ++ partsAll rest

end

/-- The places of several descriptions that are numbered one after the other. -/
def places (n : NodeId) : List Spec → List NodeId
  | [] => []
  | s :: rest => n :: places (n + s.parts.length) rest

theorem parts_head (s : Spec) : s.parts[0]? = some s := by
  cases s with
  | token data => rfl
  | group children => rfl

theorem partsAll_append (specs specs' : List Spec) :
    partsAll (specs ++ specs') = partsAll specs ++ partsAll specs' := by
  induction specs with
  | nil => rfl
  | cons s specs ih => rw [List.cons_append, partsAll, ih, partsAll, List.append_assoc]

theorem partsAll_singleton (s : Spec) : partsAll [s] = s.parts := by
  rw [partsAll, partsAll, List.append_nil]

/-- A part of several descriptions is one of the first, or further on one of the others. -/
theorem getElem?_partsAll_cons {s part : Spec} {rest : List Spec} {k : Nat} :
    (partsAll (s :: rest))[k]? = some part ↔
      s.parts[k]? = some part ∨
        s.parts.length ≤ k ∧ (partsAll rest)[k - s.parts.length]? = some part := by
  rw [partsAll]
  by_cases hk : k < s.parts.length
  · rw [List.getElem?_append_left hk, or_iff_left (by omega)]
  · rw [List.getElem?_append_right (by omega), or_iff_right]
    · exact (and_iff_right (by omega)).symm
    · rw [List.getElem?_eq_none (by omega)]
      exact (Option.some_ne_none part).symm

end Spec

namespace Tree

variable {t t' t'' : Tree} {parent id : NodeId} {new : List NodeId} {s part : Spec}

/-! ### Nodes at their places -/

/-- A node is what a description says, if the parts of the description are numbered from this node
on: a plain token, or a group with its children at their places. -/
def Placed (t : Tree) (id : NodeId) : Spec → Prop
  | .token data => t.token? id = some (.plain data)
  | .group children => t.isGroup id = true ∧ t.children id = Spec.places (id + 1) children

/-- Every part of a description is at its place, numbered from a node on. -/
def PlacedFrom (t : Tree) (n : NodeId) (parts : List Spec) : Prop :=
  ∀ k part, parts[k]? = some part → t.Placed (n + k) part

/-- `t'` has all nodes of `t` as they were, but a group has more children. -/
structure Appends (t t' : Tree) (parent : NodeId) (new : List NodeId) : Prop where
  size_le : t.size ≤ t'.size
  token? : ∀ {id}, id < t.size → t'.token? id = t.token? id
  isGroup : ∀ {id}, id < t.size → t'.isGroup id = t.isGroup id
  children : ∀ {id}, id < t.size →
    t'.children id = if id = parent then t.children id ++ new else t.children id

theorem Appends.refl (t : Tree) (parent : NodeId) : t.Appends t parent [] where
  size_le := Nat.le_refl _
  token? _ := rfl
  isGroup _ := rfl
  children _ := by
    rw [List.append_nil, ite_self]

/-- Children that are appended one after the other are appended together. -/
theorem Appends.trans {new' : List NodeId} (h : t.Appends t' parent new)
    (h' : t'.Appends t'' parent new') : t.Appends t'' parent (new ++ new') where
  size_le := Nat.le_trans h.size_le h'.size_le
  token? hid := (h'.token? (Nat.lt_of_lt_of_le hid h.size_le)).trans (h.token? hid)
  isGroup hid := (h'.isGroup (Nat.lt_of_lt_of_le hid h.size_le)).trans (h.isGroup hid)
  children hid := by
    rw [h'.children (Nat.lt_of_lt_of_le hid h.size_le), h.children hid]
    split
    · rw [List.append_assoc]
    · rfl

/-- What is appended to a new group does not change the nodes that were there before it. -/
theorem Appends.inside {new' : List NodeId} (h : t.Appends t' parent new)
    (h' : t'.Appends t'' id new') (hid : t.size ≤ id) : t.Appends t'' parent new where
  size_le := Nat.le_trans h.size_le h'.size_le
  token? hlt := (h'.token? (Nat.lt_of_lt_of_le hlt h.size_le)).trans (h.token? hlt)
  isGroup hlt := (h'.isGroup (Nat.lt_of_lt_of_le hlt h.size_le)).trans (h.isGroup hlt)
  children hlt := by
    rw [h'.children (Nat.lt_of_lt_of_le hlt h.size_le), if_neg (by omega), h.children hlt]

/-- A node at its place stays there as long as nothing is appended to it. -/
theorem Placed.mono (hs : t.Placed id s) (h : t.Appends t' parent new) (hid : id < t.size)
    (hne : id ≠ parent) : t'.Placed id s := by
  cases s with
  | token data => exact (h.token? hid).trans hs
  | group children =>
    refine ⟨(h.isGroup hid).trans hs.1, ?_⟩
    rw [h.children hid, if_neg hne, hs.2]

theorem appends_grown {a : Addition} (h : t.isGroup a.parent = true) :
    t.Appends (t.grown a) a.parent [t.size] where
  size_le := by
    rw [(extends_grown h).size]
    omega
  token? hid := by rw [(extends_grown h).token?, if_neg (Nat.ne_of_lt hid)]
  isGroup hid := by rw [(extends_grown h).isGroup, if_neg (Nat.ne_of_lt hid)]
  children _ := (extends_grown h).children _

/-- Adding a token to a group. -/
theorem addToken_of_isGroup (h : t.isGroup parent = true) (tok : Token) :
    t.addToken parent tok = .ok (t.size, t.grown (.token parent tok)) :=
  (Addition.run_eq_ok_iff (a := .token parent tok)).2 ⟨h, rfl, rfl⟩

/-- Adding a group to a group. -/
theorem addGroup_of_isGroup (h : t.isGroup parent = true) :
    t.addGroup parent = .ok (t.size, t.grown (.group parent)) :=
  (Addition.run_eq_ok_iff (a := .group parent)).2 ⟨h, rfl, rfl⟩

/-- A group that was added is one. -/
theorem isGroup_grown_group (h : t.isGroup parent = true) :
    (t.grown (.group parent)).isGroup t.size = true := by
  rw [(extends_grown (a := .group parent) h).isGroup, if_pos rfl]
  rfl

/-- There is nothing in a group that was added. -/
theorem children_grown_group (h : t.isGroup parent = true) :
    (t.grown (.group parent)).children t.size = [] := by
  have hparent : parent < t.size := contains_iff.1 (contains_of_isGroup h)
  have hnone : t.nodes[t.size]? = none := Array.getElem?_eq_none (Nat.le_refl t.nodes.size)
  rw [(extends_grown (a := .group parent) h).children,
    if_neg (show t.size ≠ (Addition.group parent).parent from Nat.ne_of_gt hparent), children,
    hnone]

end Tree

namespace Spec

open TokenHighlight.Tree

variable {t t' : Tree} {parent id : NodeId} {specs : List Spec}

/-! ### Where parts are placed -/

/-- Appending a token to a group. -/
theorem addTo_token (h : t.isGroup parent = true) (data : TokenData) :
    (Spec.token data).addTo t parent = .ok (t.grown (.token parent (.plain data))) := by
  rw [addTo, addToken_of_isGroup h]
  rfl

/-- Appending a group to a group. -/
theorem addTo_group (h : t.isGroup parent = true) (children : List Spec) :
    (Spec.group children).addTo t parent = addAllTo (t.grown (.group parent)) t.size children := by
  rw [addTo, addGroup_of_isGroup h]
  rfl

/-- What appending descriptions to a group does: the group has more children, and the parts are
placed from the next number on. -/
structure Placing (t t' : Tree) (parent : NodeId) (new : List NodeId) (parts : List Spec) :
    Prop where
  size : t'.size = t.size + parts.length
  appends : t.Appends t' parent new
  placed : t'.PlacedFrom t.size parts

/-- Filling the empty group that came last puts it at its place, with what lies in it. -/
theorem Placing.placedFrom_group (h : Placing t t' id (places t.size specs) (partsAll specs))
    (hgroup : t.isGroup id = true) (hempty : t.children id = []) (hlast : t.size = id + 1) :
    t'.PlacedFrom id (Spec.group specs).parts := by
  have hid : id < t.size := contains_iff.1 (contains_of_isGroup hgroup)
  intro k part hpart
  cases k with
  | zero =>
    obtain rfl : Spec.group specs = part := Option.some.inj hpart
    refine ⟨(h.appends.isGroup hid).trans hgroup, ?_⟩
    calc t'.children id = t.children id ++ places t.size specs := by
          rw [h.appends.children hid, if_pos rfl]
      _ = places (id + 1) specs := by rw [hempty, List.nil_append, hlast]
  | succ k =>
    have hplaced := h.placed k part hpart
    rw [hlast, Nat.add_right_comm] at hplaced
    exact hplaced

mutual

/-- **A description is placed at the next number.** -/
theorem placed_addTo (s : Spec) {t t' : Tree} {parent : NodeId} (hgroup : t.isGroup parent = true)
    (h : s.addTo t parent = .ok t') : Placing t t' parent [t.size] s.parts := by
  match s with
  | .token data =>
    rw [addTo_token hgroup] at h
    cases h
    have hx := extends_grown (a := .token parent (.plain data)) hgroup
    refine ⟨hx.size, appends_grown (a := .token parent (.plain data)) hgroup, ?_⟩
    intro k part hpart
    cases k with
    | zero =>
      obtain rfl : Spec.token data = part := Option.some.inj hpart
      exact (hx.token? _).trans (if_pos rfl)
    | succ k => cases hpart
  | .group children =>
    rw [addTo_group hgroup] at h
    have hx := extends_grown (a := .group parent) hgroup
    have hnew := isGroup_grown_group hgroup
    have hinner := placed_addAllTo children hnew h
    refine ⟨?_, ?_, hinner.placedFrom_group hnew (children_grown_group hgroup) hx.size⟩
    · rw [hinner.size, hx.size, parts, List.length_cons]
      omega
    · exact (appends_grown (a := .group parent) hgroup).inside hinner.appends (Nat.le_refl _)

/-- **Descriptions are placed one after the other.** -/
theorem placed_addAllTo (specs : List Spec) {t t' : Tree} {parent : NodeId}
    (hgroup : t.isGroup parent = true) (h : addAllTo t parent specs = .ok t') :
    Placing t t' parent (places t.size specs) (partsAll specs) := by
  have hparent : parent < t.size := contains_iff.1 (contains_of_isGroup hgroup)
  match specs with
  | [] =>
    cases h
    refine ⟨rfl, Appends.refl t parent, ?_⟩
    rintro k part ⟨⟩
  | s :: rest =>
    obtain ⟨t₁, hfirst, hgrows⟩ := exists_addTo s hgroup
    rw [addAllTo, hfirst] at h
    have hs := placed_addTo s hgroup hfirst
    have hrest := placed_addAllTo rest (hgrows.isGroup parent hgroup) h
    refine ⟨?_, ?_, ?_⟩
    · rw [hrest.size, hs.size, partsAll, List.length_append]
      omega
    · have happends := hs.appends.trans hrest.appends
      rw [hs.size] at happends
      exact happends
    · intro k part hpart
      rcases getElem?_partsAll_cons.1 hpart with hpart | ⟨hk, hpart⟩
      · have hlt : k < s.parts.length := (List.getElem?_eq_some_iff.1 hpart).1
        refine (hs.placed k part hpart).mono hrest.appends ?_ ?_
        · rw [hs.size]
          exact Nat.add_lt_add_left hlt t.size
        · exact Nat.ne_of_gt (Nat.lt_of_lt_of_le hparent (Nat.le_add_right t.size k))
      · have hplaced := hrest.placed _ part hpart
        rw [hs.size] at hplaced
        rw [show t.size + k = t.size + s.parts.length + (k - s.parts.length) by omega]
        exact hplaced

end

/-! ### Parts of parts -/

mutual

/-- The parts of a part follow it, where the part is. -/
theorem getElem?_parts_add {part p : Spec} {k j : Nat} (s : Spec) (hpart : s.parts[k]? = some part)
    (hp : part.parts[j]? = some p) : s.parts[k + j]? = some p := by
  match s with
  | .token data =>
    cases k with
    | zero =>
      obtain rfl : Spec.token data = part := Option.some.inj hpart
      rwa [Nat.zero_add]
    | succ k => cases hpart
  | .group children =>
    cases k with
    | zero =>
      obtain rfl : Spec.group children = part := Option.some.inj hpart
      rwa [Nat.zero_add]
    | succ k =>
      rw [Nat.succ_add]
      exact getElem?_partsAll_add children hpart hp

theorem getElem?_partsAll_add {part p : Spec} {k j : Nat} (specs : List Spec)
    (hpart : (partsAll specs)[k]? = some part) (hp : part.parts[j]? = some p) :
    (partsAll specs)[k + j]? = some p := by
  match specs with
  | [] => cases hpart
  | s :: rest =>
    rcases getElem?_partsAll_cons.1 hpart with hpart | ⟨hk, hpart⟩
    · exact getElem?_partsAll_cons.2 (Or.inl (getElem?_parts_add s hpart hp))
    · refine getElem?_partsAll_cons.2 (Or.inr ⟨by omega, ?_⟩)
      rw [show k + j - s.parts.length = k - s.parts.length + j by omega]
      exact getElem?_partsAll_add rest hpart hp

end

end Spec

namespace Tree

open Spec

variable {t t' : Tree} {id n : NodeId} {s part : Spec} {specs rest : List Spec}

theorem PlacedFrom.head (h : t.PlacedFrom n s.parts) : t.Placed n s :=
  h 0 s s.parts_head

theorem PlacedFrom.children (h : t.PlacedFrom n (Spec.group specs).parts) :
    t.PlacedFrom (n + 1) (partsAll specs) := by
  intro k part hpart
  rw [Nat.add_right_comm]
  exact h (k + 1) part hpart

theorem PlacedFrom.first (h : t.PlacedFrom n (partsAll (s :: rest))) : t.PlacedFrom n s.parts := by
  intro k part hpart
  exact h k part (getElem?_partsAll_cons.2 (Or.inl hpart))

theorem PlacedFrom.others (h : t.PlacedFrom n (partsAll (s :: rest))) :
    t.PlacedFrom (n + s.parts.length) (partsAll rest) := by
  intro k part hpart
  rw [Nat.add_assoc]
  refine h _ part (getElem?_partsAll_cons.2 (Or.inr ⟨Nat.le_add_right _ k, ?_⟩))
  rwa [Nat.add_sub_cancel_left]

theorem PlacedFrom.below {k : Nat} (h : t.PlacedFrom n s.parts) (hpart : s.parts[k]? = some part) :
    t.PlacedFrom (n + k) part.parts := by
  intro j p hp
  rw [Nat.add_assoc]
  exact h (k + j) p (getElem?_parts_add s hpart hp)

/-! ### Reading back -/

mutual

/-- What a tree describes below a node, by recursion over the children of groups. -/
inductive Reads (t : Tree) : NodeId → Spec → Prop
  | token {id : NodeId} {tok : Token} (h : t.token? id = some tok) :
      Reads t id (.token tok.toTokenData)
  | group {id : NodeId} {specs : List Spec} (h : t.isGroup id = true)
      (hall : ReadsAll t (t.children id) specs) : Reads t id (.group specs)

/-- What a tree describes below several nodes, one after the other. -/
inductive ReadsAll (t : Tree) : List NodeId → List Spec → Prop
  | nil : ReadsAll t [] []
  | cons {id : NodeId} {ids : List NodeId} {s : Spec} {rest : List Spec} (h : Reads t id s)
      (hall : ReadsAll t ids rest) : ReadsAll t (id :: ids) (s :: rest)

end

theorem Reads.lt_size (h : t.Reads id s) : id < t.size := by
  refine contains_iff.1 ?_
  cases h with
  | token ht => rw [contains_eq_isGroup_or_isSome, ht, Option.isSome_some, Bool.or_true]
  | group hg _ => exact contains_of_isGroup hg

mutual

/-- A node is read back in one way only. -/
theorem Reads.unique {id : NodeId} {s' : Spec} (s : Spec) (h : t.Reads id s) (h' : t.Reads id s') :
    s = s' := by
  match s with
  | .token data =>
    cases h with
    | token ht =>
      cases h' with
      | token ht' =>
        rw [ht] at ht'
        cases ht'
        rfl
      | group hg _ =>
        rw [token?_of_isGroup hg] at ht
        cases ht
  | .group specs =>
    cases h with
    | group hg hall =>
      cases h' with
      | token ht =>
        rw [token?_of_isGroup hg] at ht
        cases ht
      | group _ hall' => exact congrArg Spec.group (ReadsAll.unique specs hall hall')

theorem ReadsAll.unique {ids : List NodeId} {specs' : List Spec} (specs : List Spec)
    (h : t.ReadsAll ids specs) (h' : t.ReadsAll ids specs') : specs = specs' := by
  match specs with
  | [] =>
    cases h
    cases h'
    rfl
  | s :: rest =>
    cases h with
    | cons hs hrest =>
      cases h' with
      | cons hs' hrest' =>
        rw [Reads.unique s hs hs', ReadsAll.unique rest hrest hrest']

end

mutual

/-- **Parts at their places are read back.** -/
theorem PlacedFrom.reads {n : NodeId} (s : Spec) (h : t.PlacedFrom n s.parts) : t.Reads n s := by
  match s with
  | .token data => exact .token h.head
  | .group specs =>
    obtain ⟨hgroup, hchildren⟩ := h.head
    refine .group hgroup ?_
    rw [hchildren]
    exact PlacedFrom.readsAll specs h.children

theorem PlacedFrom.readsAll {n : NodeId} (specs : List Spec)
    (h : t.PlacedFrom n (partsAll specs)) : t.ReadsAll (places n specs) specs := by
  match specs with
  | [] => exact .nil
  | s :: rest =>
    exact .cons (PlacedFrom.reads s h.first) (PlacedFrom.readsAll rest h.others)

end

mutual

/-- Colors and flags are not read back. -/
theorem Reads.of_cleared {id : NodeId} (s : Spec) (h : t.cleared.Reads id s) : t.Reads id s := by
  match s with
  | .token data =>
    cases h with
    | token htok =>
      rw [token?_cleared, Option.map_eq_some_iff] at htok
      obtain ⟨tok, htok, rfl⟩ := htok
      have hread : t.Reads id (.token tok.toTokenData) := .token htok
      exact hread
  | .group specs =>
    cases h with
    | group hgroup hall =>
      rw [isGroup_cleared] at hgroup
      rw [children_cleared] at hall
      exact .group hgroup (ReadsAll.of_cleared specs hall)

theorem ReadsAll.of_cleared {ids : List NodeId} (specs : List Spec)
    (h : t.cleared.ReadsAll ids specs) : t.ReadsAll ids specs := by
  match specs with
  | [] =>
    cases h
    exact .nil
  | s :: rest =>
    cases h with
    | cons hs hrest => exact .cons (Reads.of_cleared s hs) (ReadsAll.of_cleared rest hrest)

end

/-- If a tree is just the parts of a description, a node with some number is read back as the part
with this place. -/
theorem reads_iff_getElem?_parts (h : t.PlacedFrom root s.parts) (hsize : t.size = s.parts.length) :
    t.Reads id part ↔ s.parts[id]? = some part := by
  have hreads : ∀ {part}, s.parts[id]? = some part → t.Reads id part := by
    intro part hpart
    have hid : t.PlacedFrom (root + id) part.parts := h.below hpart
    rw [root, Nat.zero_add] at hid
    exact hid.reads part
  refine ⟨fun hr => ?_, hreads⟩
  have hlt : id < s.parts.length := hsize ▸ hr.lt_size
  have hpart : s.parts[id]? = some s.parts[id] := List.getElem?_eq_getElem hlt
  rw [hr.unique part (hreads hpart), hpart]

/-! ### Document order -/

mutual

/-- The tokens below a node at its place are those with the numbers of its parts, from the smallest
to the greatest. -/
theorem PlacedFrom.flatten_eq {n : NodeId} (hwf : t.WellFormed) (s : Spec)
    (h : t.PlacedFrom n s.parts) :
    t.flatten n = (List.range' n s.parts.length).filter fun id => (t.token? id).isSome := by
  match s with
  | .token data =>
    have htok : t.token? n = some (.plain data) := h.head
    rw [flatten_eq_singleton_of_token? htok, parts, List.length_singleton, List.range'_one,
      List.filter_cons_of_pos (by rw [htok]; rfl), List.filter_nil]
  | .group specs =>
    obtain ⟨hgroup, hchildren⟩ := h.head
    rw [hwf.flatten_eq_flatMap hgroup, hchildren,
      PlacedFrom.flatMap_flatten_eq hwf specs h.children, parts, List.length_cons, List.range'_succ,
      List.filter_cons_of_neg (by rw [token?_of_isGroup hgroup]; exact Bool.false_ne_true)]

theorem PlacedFrom.flatMap_flatten_eq {n : NodeId} (hwf : t.WellFormed) (specs : List Spec)
    (h : t.PlacedFrom n (partsAll specs)) :
    (places n specs).flatMap t.flatten =
      (List.range' n (partsAll specs).length).filter fun id => (t.token? id).isSome := by
  match specs with
  | [] => rfl
  | s :: rest =>
    rw [places, List.flatMap_cons, PlacedFrom.flatten_eq hwf s h.first,
      PlacedFrom.flatMap_flatten_eq hwf rest h.others, ← List.filter_append, List.range'_append_1,
      partsAll, List.length_append]

end

/-- If a tree is just the parts of a description, document order is the order of numbers. -/
theorem pairwise_tokens (hwf : t.WellFormed) (h : t.PlacedFrom root s.parts) :
    t.tokens.Pairwise (· < ·) := by
  rw [tokens, h.flatten_eq hwf s]
  exact (List.pairwise_lt_range' 1).filter _

/-! ### One stack of groups -/

/-- How many parts are still to come in the groups on a stack. -/
def pendingParts : List (NodeId × List Spec) → Nat
  | [] => 0
  | (_, specs) :: pending => (partsAll specs).length + pendingParts pending

/-- Appends what is still to come in the groups on a stack, the topmost group first. A group that is
appended comes on top, and one in which nothing is to come is taken away. -/
def appendPending (t : Tree) : List (NodeId × List Spec) → Except TreeError Tree
  | [] => .ok t
  | (_, []) :: pending => t.appendPending pending
  | (parent, .token data :: rest) :: pending => do
    let (_, t) ← t.addToken parent (.plain data)
    t.appendPending ((parent, rest) :: pending)
  | (parent, .group children :: rest) :: pending => do
    let (id, t) ← t.addGroup parent
    t.appendPending ((id, children) :: (parent, rest) :: pending)
termination_by pending => (pendingParts pending, pending.length)
decreasing_by
  all_goals simp [pendingParts, partsAll, parts, Prod.lex_def]
  all_goals omega

end Tree

namespace Spec

open TokenHighlight.Tree

mutual

/-- A group and all that lies in it have been on the stack once the next description is due. -/
theorem appendPending_addTo (s : Spec) {t t' : Tree} {parent : NodeId} {rest : List Spec}
    {pending : List (NodeId × List Spec)} (hgroup : t.isGroup parent = true)
    (h : s.addTo t parent = .ok t') :
    t.appendPending ((parent, s :: rest) :: pending) =
      t'.appendPending ((parent, rest) :: pending) := by
  match s with
  | .token data =>
    rw [addTo_token hgroup] at h
    cases h
    rw [appendPending, addToken_of_isGroup hgroup]
    rfl
  | .group children =>
    rw [addTo_group hgroup] at h
    rw [appendPending, addGroup_of_isGroup hgroup]
    exact appendPending_addAllTo children (isGroup_grown_group hgroup) h

/-- **The stack comes to what the recursion comes to.** -/
theorem appendPending_addAllTo (specs : List Spec) {t t' : Tree} {parent : NodeId}
    {pending : List (NodeId × List Spec)} (hgroup : t.isGroup parent = true)
    (h : addAllTo t parent specs = .ok t') :
    t.appendPending ((parent, specs) :: pending) = t'.appendPending pending := by
  match specs with
  | [] =>
    cases h
    rw [appendPending]
  | s :: rest =>
    obtain ⟨t₁, hfirst, hgrows⟩ := exists_addTo s hgroup
    rw [addAllTo, hfirst] at h
    rw [appendPending_addTo s hgroup hfirst]
    exact appendPending_addAllTo rest (hgrows.isGroup parent hgroup) h

end

end Spec

/-! ### The contract of making a tree of a description -/

namespace Tree

/-- A token at the top is the one thing that makes no tree of a description. -/
theorem ofSpec_eq_error_iff {s : Spec} {e : TreeError} :
    ofSpec s = .error e ↔ e = .rootNotGroup ∧ ∃ data, s = .token data := by
  cases s with
  | token data =>
    constructor
    · intro h
      exact ⟨(Except.error.inj h).symm, data, rfl⟩
    · rintro ⟨rfl, _⟩
      rfl
  | group children =>
    obtain ⟨t, ht, _⟩ := exists_ofSpec children
    constructor
    · intro h
      rw [ht] at h
      cases h
    · rintro ⟨_, data, h⟩
      cases h

/-- The tree of a description has its parts, in document order, and no other nodes. -/
theorem placing_ofSpec {children : List Spec} {t : Tree} (h : ofSpec (.group children) = .ok t) :
    t.size = (Spec.group children).parts.length ∧
      t.PlacedFrom root (Spec.group children).parts := by
  have hplacing := Spec.placed_addAllTo children (show empty.isGroup root = true from rfl) h
  have hsize : t.size = (Spec.group children).parts.length := by
    rw [hplacing.size, Spec.parts, List.length_cons, Nat.add_comm]
    rfl
  exact ⟨hsize, hplacing.placedFrom_group rfl rfl rfl⟩

/-- A tree is made of one description only. -/
theorem ofSpec_injective {s s' : Spec} {t : Tree} (h : ofSpec s = .ok t) (h' : ofSpec s' = .ok t) :
    s = s' := by
  cases s with
  | token data => cases h
  | group children =>
    cases s' with
    | token data => cases h'
    | group children' =>
      have hreads : t.Reads root (.group children) := (placing_ofSpec h).2.reads _
      have hreads' : t.Reads root (.group children') := (placing_ofSpec h').2.reads _
      exact hreads.unique _ hreads'

/-- **Making a tree of a description.** It fails just when the top of the description is a token.
Otherwise the tree is made, by the stack as well as by recursion, and neither meets an error. What
is read back from its root is the description, and nothing else is; what is read back from the node
with some number is the part with this place in document order, the children of a group being
numbered one after the other from behind the group on. No token has a color or a flag, document
order is the order of numbers, and there are as many nodes as parts. -/
theorem ofSpec_reads_back (s : Spec) :
    (∀ e, ofSpec s = .error e ↔ e = .rootNotGroup ∧ ∃ data, s = .token data) ∧
    ∀ children, s = .group children → ∃ t, ofSpec s = .ok t ∧
      empty.appendPending [(root, children)] = .ok t ∧
      (∀ s', t.Reads root s' ↔ s' = s) ∧
      (∀ id part, t.Reads id part ↔ s.parts[id]? = some part) ∧
      (∀ id part, s.parts[id]? = some part → t.Placed id part) ∧
      t.IsPlain ∧ t.tokens.Pairwise (· < ·) ∧ t.size = s.parts.length := by
  refine ⟨fun _ => ofSpec_eq_error_iff, ?_⟩
  rintro children rfl
  obtain ⟨t, ht, hreachable, hplain⟩ := exists_ofSpec children
  obtain ⟨hsize, hplaced⟩ := placing_ofSpec ht
  have hreads : ∀ id part, t.Reads id part ↔ (Spec.group children).parts[id]? = some part :=
    fun _ _ => reads_iff_getElem?_parts hplaced hsize
  refine ⟨t, ht, ?_, ?_, hreads, ?_, hplain, pairwise_tokens hreachable.wellFormed hplaced, hsize⟩
  · rw [Spec.appendPending_addAllTo children rfl ht, appendPending]
  · intro s'
    rw [hreads]
    constructor
    · intro h
      exact (Option.some.inj h).symm
    · rintro rfl
      rfl
  · intro id part hpart
    have hid := hplaced id part hpart
    rwa [root, Nat.zero_add] at hid

end Tree

end TokenHighlight
