import TokenHighlight.Tree.Basic

/-!
# Nested descriptions of trees

A description says which groups lie in which, and what is known of each token. It names no node
and says nothing of how tokens are displayed.

## Main definitions

* `Spec` — a nested description
* `Spec.addTo`, `Spec.addAllTo` — appending what is described to a group of a tree
* `Tree.ofSpec` — the tree that is described, its nodes numbered in document order
-/

namespace TokenHighlight

/-- A nested description of a tree. -/
inductive Spec
  | group (children : List Spec)
  | token (data : TokenData)

namespace Spec

mutual

/-- Appends what is described as the last child of a group. -/
def addTo (t : Tree) (parent : NodeId) : Spec → Except TreeError Tree
  | .token data => do
    let (_, t) ← t.addToken parent (.plain data)
    return t
  | .group children => do
    let (id, t) ← t.addGroup parent
    addAllTo t id children

/-- Appends several descriptions as the last children of a group, in their order. -/
def addAllTo (t : Tree) (parent : NodeId) : List Spec → Except TreeError Tree
  | [] => .ok t
  | s :: rest => do addAllTo (← s.addTo t parent) parent rest

end

end Spec

/-- The tree that is described. Its root has to be a group. -/
def Tree.ofSpec : Spec → Except TreeError Tree
  | .token _ => .error .rootNotGroup
  | .group children => Spec.addAllTo .empty Tree.root children

end TokenHighlight
