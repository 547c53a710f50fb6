import TokenHighlight.Tree.Order

/-!
# Growing a tree

A tree comes about in one way only. It starts as the empty root group, a group or a token is added
as the last child of some node, and tokens may be written to in between. An addition under a number
that is not a group fails, and the tree stays as it is.

Nothing here says what a tree looks like after many additions; that is `WellFormed`. This module
says what a single one does, in terms of the questions that can be asked of a tree, so that later
proofs never look at how nodes are stored.

## Main definitions

* `Tree.Addition` — what is added, and where
* `Tree.Edit`, `Tree.edited` — additions and writes, and the tree behind a list of them
* `Tree.Reachable` — the trees that come about
* `Tree.Extends` — one tree is another with one more node

## Main results

* `Tree.Addition.run_eq` — when an addition succeeds, and which error it gives when it does not
* `Tree.extends_grown` — what an addition changes if it succeeds
-/

namespace TokenHighlight

namespace Tree

/-! ### Additions -/

/-- What can be added to a tree: an empty group or a token, as the last child of a node. -/
inductive Addition
  | group (parent : NodeId)
  | token (parent : NodeId) (tok : Token)
deriving DecidableEq, Repr

namespace Addition

/-- The node under which something is added. -/
def parent : Addition → NodeId
  | group parent => parent
  | token parent _ => parent

/-- The token that is added, unless it is a group. -/
def token? : Addition → Option Token
  | group _ => none
  | token _ tok => some tok

/-- What the new node is. -/
def content : Addition → Content
  | group _ => .group #[]
  | token _ tok => .token tok

/-- Carries out an addition, and tells the number of the new node. -/
def run (t : Tree) : Addition → Except TreeError (NodeId × Tree)
  | group parent => t.addGroup parent
  | token parent tok => t.addToken parent tok

theorem run_eq_push (t : Tree) (a : Addition) : a.run t = t.push a.parent a.content := by
  cases a <;> rfl

end Addition

/-- The tree behind an addition, which is the same tree if the addition fails. -/
def add (t : Tree) (a : Addition) : Tree :=
  match a.run t with
  | .ok (_, t') => t'
  | .error _ => t

/-- The tree with one more node. This is what an addition makes, provided the parent is a group. -/
def grown (t : Tree) (a : Addition) : Tree :=
  ⟨(t.nodes.modify a.parent (Node.addChild t.size)).push ⟨some a.parent, a.content⟩⟩

theorem contains_of_isGroup {t : Tree} {id : NodeId} (h : t.isGroup id = true) :
    t.contains id = true := by
  rw [contains_eq_isGroup_or_isSome, h, Bool.true_or]

theorem token?_of_isGroup {t : Tree} {id : NodeId} (h : t.isGroup id = true) :
    t.token? id = none := by
  rw [isGroup] at h
  split at h
  · next hn => rw [token?, hn]
  · simp at h

/-- **The outcome of an addition.** It succeeds under a group and nowhere else; a token and a number
that names nothing are told apart by the error. -/
theorem Addition.run_eq (t : Tree) (a : Addition) :
    a.run t =
      if t.isGroup a.parent then .ok (t.size, t.grown a)
      else if t.contains a.parent then .error (.notAGroup a.parent)
      else .error (.unknownNode a.parent) := by
  rw [Addition.run_eq_push, push]
  by_cases hlt : a.parent < t.nodes.size
  · rcases hn : t.nodes[a.parent] with ⟨p, cs | tok⟩ <;>
      simp [isGroup, contains, Tree.size, grown, hlt, hn]
  · simp [isGroup, contains, Tree.size, hlt]

theorem Addition.run_eq_unknownNode_iff {t : Tree} {a : Addition} :
    a.run t = .error (.unknownNode a.parent) ↔ t.size ≤ a.parent := by
  rw [Addition.run_eq]
  by_cases hlt : a.parent < t.size
  · have hc : t.contains a.parent = true := contains_iff.2 hlt
    cases hg : t.isGroup a.parent <;> simp [hc, hlt]
  · have hc : t.contains a.parent = false := by simpa [contains] using hlt
    have hg : t.isGroup a.parent = false := by
      rw [contains_eq_isGroup_or_isSome, Bool.or_eq_false_iff] at hc
      exact hc.1
    simp [hc, hg, Nat.le_of_not_lt hlt]

theorem Addition.run_eq_notAGroup_iff {t : Tree} {a : Addition} :
    a.run t = .error (.notAGroup a.parent) ↔ (t.token? a.parent).isSome = true := by
  rw [Addition.run_eq, contains_eq_isGroup_or_isSome]
  cases hg : t.isGroup a.parent with
  | true => simp [token?_of_isGroup hg]
  | false => cases ht : (t.token? a.parent).isSome <;> simp

theorem Addition.run_eq_ok_iff {t t' : Tree} {a : Addition} {id : NodeId} :
    a.run t = .ok (id, t') ↔ t.isGroup a.parent = true ∧ id = t.size ∧ t.grown a = t' := by
  rw [Addition.run_eq]
  cases hg : t.isGroup a.parent with
  | true => simp [eq_comm]
  | false => cases hc : t.contains a.parent <;> simp

/-- The two errors of additions are the only ones. -/
theorem Addition.eq_of_run_eq_error {t : Tree} {a : Addition} {e : TreeError}
    (h : a.run t = .error e) : e = .unknownNode a.parent ∨ e = .notAGroup a.parent := by
  rw [Addition.run_eq] at h
  split at h
  · cases h
  · split at h
    · exact Or.inr (Except.error.inj h).symm
    · exact Or.inl (Except.error.inj h).symm

theorem add_of_isGroup {t : Tree} {a : Addition} (h : t.isGroup a.parent = true) :
    t.add a = t.grown a := by
  rw [add, Addition.run_eq_ok_iff.2 ⟨h, rfl, rfl⟩]

theorem add_of_run_eq_error {t : Tree} {a : Addition} {e : TreeError} (h : a.run t = .error e) :
    t.add a = t := by
  rw [add, h]

theorem add_of_not_isGroup {t : Tree} {a : Addition} (h : t.isGroup a.parent = false) :
    t.add a = t := by
  cases hrun : a.run t with
  | ok r =>
    rw [(Addition.run_eq_ok_iff.1 hrun).1] at h
    cases h
  | error e => exact add_of_run_eq_error hrun

/-- The two cases of an addition, for proofs about all trees that come about. -/
theorem add_cases (t : Tree) (a : Addition) :
    (t.isGroup a.parent = true ∧ t.add a = t.grown a) ∨ t.add a = t := by
  cases h : t.isGroup a.parent with
  | true => exact Or.inl ⟨rfl, add_of_isGroup h⟩
  | false => exact Or.inr (add_of_not_isGroup h)

/-! ### What an addition changes -/

/-- `t'` is `t` with one more node: it has the next number, is what was added, and stands last among
the children of its parent. Everything else is the same in both. -/
structure Extends (t t' : Tree) (a : Addition) : Prop where
  size : t'.size = t.size + 1
  parent? : ∀ id, t'.parent? id = if id = t.size then some a.parent else t.parent? id
  isGroup : ∀ id, t'.isGroup id = if id = t.size then a.token?.isNone else t.isGroup id
  token? : ∀ id, t'.token? id = if id = t.size then a.token? else t.token? id
  children : ∀ id,
    t'.children id = if id = a.parent then t.children id ++ [t.size] else t.children id

/-- A node of the grown tree is the new one, or the parent with one more child, or as it was. -/
theorem getElem?_nodes_grown {t : Tree} {a : Addition} (h : t.isGroup a.parent = true)
    (id : NodeId) :
    (id = t.size ∧ id ≠ a.parent ∧ t.nodes[id]? = none ∧
        (t.grown a).nodes[id]? = some ⟨some a.parent, a.content⟩) ∨
      (id ≠ t.size ∧ id = a.parent ∧ ∃ q cs, t.nodes[id]? = some ⟨q, .group cs⟩ ∧
        (t.grown a).nodes[id]? = some ⟨q, .group (cs.push t.size)⟩) ∨
      (id ≠ t.size ∧ id ≠ a.parent ∧ (t.grown a).nodes[id]? = t.nodes[id]?) := by
  have hlt : a.parent < t.size := contains_iff.1 (contains_of_isGroup h)
  have hnode : (t.grown a).nodes[id]? =
      if id = t.size then some ⟨some a.parent, a.content⟩
      else if a.parent = id then t.nodes[id]?.map (Node.addChild t.size)
      else t.nodes[id]? := by
    rw [grown, Array.getElem?_push, Array.size_modify, Array.getElem?_modify]
    rfl
  by_cases hid : id = t.size
  · rw [if_pos hid] at hnode
    exact Or.inl ⟨hid, hid ▸ Nat.ne_of_gt hlt, by simp [hid, Tree.size], hnode⟩
  by_cases hp : id = a.parent
  · rw [if_neg hid, if_pos hp.symm] at hnode
    rw [← hp] at h
    rw [Tree.isGroup] at h
    split at h
    · next q cs hn =>
      rw [hn] at hnode
      exact Or.inr (Or.inl ⟨hid, hp, q, cs, hn, hnode⟩)
    · simp at h
  · rw [if_neg hid, if_neg (Ne.symm hp)] at hnode
    exact Or.inr (Or.inr ⟨hid, hp, hnode⟩)

theorem extends_grown {t : Tree} {a : Addition} (h : t.isGroup a.parent = true) :
    Extends t (t.grown a) a := by
  refine ⟨by simp [grown, Tree.size], fun id => ?_, fun id => ?_, fun id => ?_, fun id => ?_⟩
  · rcases getElem?_nodes_grown h id with ⟨hid, _, _, hn⟩ | ⟨hid, _, q, cs, ho, hn⟩ | ⟨hid, _, hn⟩
    · rw [if_pos hid, Tree.parent?, hn]
      rfl
    · rw [if_neg hid, Tree.parent?, Tree.parent?, hn, ho]
      rfl
    · rw [if_neg hid, Tree.parent?, Tree.parent?, hn]
  · rcases getElem?_nodes_grown h id with ⟨hid, _, _, hn⟩ | ⟨hid, _, q, cs, ho, hn⟩ | ⟨hid, _, hn⟩
    · rw [if_pos hid, Tree.isGroup, hn]
      cases a <;> rfl
    · rw [if_neg hid, Tree.isGroup, Tree.isGroup, hn, ho]
    · rw [if_neg hid, Tree.isGroup, Tree.isGroup, hn]
  · rcases getElem?_nodes_grown h id with ⟨hid, _, _, hn⟩ | ⟨hid, _, q, cs, ho, hn⟩ | ⟨hid, _, hn⟩
    · rw [if_pos hid, Tree.token?, hn]
      cases a <;> rfl
    · rw [if_neg hid, Tree.token?, Tree.token?, hn, ho]
    · rw [if_neg hid, Tree.token?, Tree.token?, hn]
  · rcases getElem?_nodes_grown h id with ⟨_, hp, ho, hn⟩ | ⟨_, hp, q, cs, ho, hn⟩ | ⟨_, hp, hn⟩
    · rw [if_neg hp, Tree.children, Tree.children, hn, ho]
      cases a <;> rfl
    · rw [if_pos hp, Tree.children, Tree.children, hn, ho]
      exact Array.toList_push
    · rw [if_neg hp, Tree.children, Tree.children, hn]

/-- The tokens behind an addition are those before it and the one that was added. -/
theorem token?_add (t : Tree) (a : Addition) (id : NodeId) :
    (t.add a).token? id = t.token? id ∨
      t.token? id = none ∧ (t.add a).token? id = a.token? := by
  rcases add_cases t a with ⟨hg, h⟩ | h
  · rw [h, (extends_grown hg).token?]
    split
    · next hid => exact Or.inr ⟨by simp [hid, Tree.token?, Tree.size], rfl⟩
    · exact Or.inl rfl
  · exact Or.inl (by rw [h])

/-! ### Edits -/

/-- What can be done to a tree from outside: an addition, or writing whatever one likes into the
token with some number. -/
inductive Edit
  | add (a : Addition)
  | write (id : NodeId) (f : Token → Token)

/-- The tree behind an edit. -/
def edit (t : Tree) : Edit → Tree
  | .add a => t.add a
  | .write id f => t.modifyToken id f

/-- The tree that a list of edits makes of the empty one. -/
def edited (edits : List Edit) : Tree :=
  edits.foldl edit empty

/-- A tree that comes about by edits. -/
def Reachable (t : Tree) : Prop :=
  ∃ edits, edited edits = t

theorem reachable_empty : empty.Reachable := ⟨[], rfl⟩

theorem edited_append_singleton (edits : List Edit) (e : Edit) :
    edited (edits ++ [e]) = (edited edits).edit e := by
  rw [edited, List.foldl_append]
  rfl

theorem Reachable.edit {t : Tree} (h : t.Reachable) (e : Edit) : (t.edit e).Reachable := by
  obtain ⟨edits, rfl⟩ := h
  exact ⟨edits ++ [e], edited_append_singleton edits e⟩

end Tree

end TokenHighlight
