import TokenHighlight.Tree.Basic

/-!
# Document order

The tokens below a node from left to right, and the groups around a node from the nearest to the
root. Both walks use no recursion on the depth of the tree: the walk down keeps the nodes still to
be visited on a stack, the walk up follows the parent links.

Each walk is given as many steps as the tree has nodes. In a tree grown by `addGroup` and
`addToken` no walk needs more, since it visits no node twice.

## Main definitions

* `Tree.drain` — the walk down from a stack; `none` if it meets a number that names no node
* `Tree.flatten` — the tokens below a node in document order
* `Tree.ancestors` — the groups around a node, nearest first
* `Tree.text` — the whole text

## Main statements

* `Tree.flatten_eq_singleton_of_token?`, `Tree.flatten_eq_nil_of_not_contains` — below a token and
  below a number that names nothing
* `Tree.flatten_modifyToken`, `Tree.ancestors_modifyToken` — changing a token changes no order
-/

namespace TokenHighlight

namespace Tree

/-- Visits the nodes on a stack, the top one first, and lists the tokens it meets. A group is
replaced by its children, so that the leftmost one is visited next. -/
def drain (t : Tree) : Nat → List NodeId → Option (List NodeId)
  | _, [] => some []
  | 0, _ :: _ => none
  | steps + 1, id :: stack =>
    match t.nodes[id]? with
    | none => none
    | some ⟨_, .token _⟩ => (t.drain steps stack).map (id :: ·)
    | some ⟨_, .group cs⟩ => t.drain steps (cs.toList ++ stack)

@[simp] theorem drain_modifyToken (t : Tree) (id : NodeId) (f : Token → Token) (steps : Nat)
    (stack : List NodeId) : (t.modifyToken id f).drain steps stack = t.drain steps stack := by
  induction steps generalizing stack with
  | zero => cases stack <;> rfl
  | succ steps ih =>
    cases stack with
    | nil => rfl
    | cons other stack =>
      by_cases h : id = other
      · simp only [drain, getElem?_nodes_modifyToken, if_pos h, ih]
        rcases t.nodes[other]? with _ | ⟨p, cs | tok⟩ <;> rfl
      · simp only [drain, getElem?_nodes_modifyToken, if_neg h, ih]

/-- The tokens below a node in document order: a token has just itself, and a number that names no
node has none. -/
def flatten (t : Tree) (id : NodeId) : List NodeId :=
  if t.contains id then (t.drain t.size [id]).getD [] else []

theorem flatten_eq_nil_of_not_contains {t : Tree} {id : NodeId} (h : t.contains id = false) :
    t.flatten id = [] := by
  simp [flatten, h]

theorem flatten_eq_singleton_of_token? {t : Tree} {id : NodeId} {tok : Token}
    (h : t.token? id = some tok) : t.flatten id = [id] := by
  have hs : t.contains id := by simp [contains_eq_isGroup_or_isSome, h]
  have hlt : id < t.size := contains_iff.1 hs
  obtain ⟨steps, hsteps⟩ := Nat.exists_eq_succ_of_ne_zero (Nat.ne_of_gt (Nat.zero_lt_of_lt hlt))
  unfold token? at h
  split at h
  · rename_i hn
    cases steps <;> simp [flatten, hs, hsteps, drain, hn]
  · cases h

@[simp] theorem flatten_modifyToken (t : Tree) (id other : NodeId) (f : Token → Token) :
    (t.modifyToken id f).flatten other = t.flatten other := by
  simp [flatten]

/-- The tokens of the tree in document order. -/
def tokens (t : Tree) : List NodeId :=
  t.flatten root

@[simp] theorem tokens_modifyToken (t : Tree) (id : NodeId) (f : Token → Token) :
    (t.modifyToken id f).tokens = t.tokens := by
  simp [tokens]

/-- The walk up from a node. -/
def climb (t : Tree) : Nat → NodeId → List NodeId
  | 0, _ => []
  | steps + 1, id =>
    match t.parent? id with
    | none => []
    | some parent => parent :: t.climb steps parent

@[simp] theorem climb_modifyToken (t : Tree) (id : NodeId) (f : Token → Token) (steps : Nat)
    (other : NodeId) : (t.modifyToken id f).climb steps other = t.climb steps other := by
  induction steps generalizing other with
  | zero => rfl
  | succ steps ih => simp [climb, ih]

/-- The groups around a node, nearest first, without the node itself. -/
def ancestors (t : Tree) (id : NodeId) : List NodeId :=
  t.climb t.size id

@[simp] theorem ancestors_modifyToken (t : Tree) (id other : NodeId) (f : Token → Token) :
    (t.modifyToken id f).ancestors other = t.ancestors other := by
  simp [ancestors]

/-- The texts of all tokens in document order. -/
def text (t : Tree) : String :=
  String.join ((t.tokens.filterMap t.token?).map (·.text))

end Tree

end TokenHighlight
