import TokenHighlight.Tree.Basic

/-!
# Building a tree in document order

A builder emits groups and tokens the way a printer walks its output: what comes next goes into
the innermost group that is still open.

## Main definitions

* `Builder`, `Builder.new` — a tree and the groups that are open
* `Builder.openGroup`, `Builder.token`, `Builder.closeGroup` — the next piece of output
* `Builder.finish` — the tree, once every group is closed
-/

namespace TokenHighlight

/-- A tree under construction. The innermost open group is always there: it is the root if no
other group is open. -/
structure Builder where
  tree : Tree
  innermost : NodeId
  /-- The open groups around the innermost one, nearest first. -/
  outer : List NodeId
deriving DecidableEq, Repr

namespace Builder

/-- An empty tree with only its root open. -/
def new : Builder :=
  ⟨.empty, Tree.root, []⟩

/-- Opens a group inside the innermost open one, and tells its number. -/
def openGroup : Builder → Except TreeError (NodeId × Builder)
  | ⟨tree, innermost, outer⟩ => do
    let (id, tree) ← tree.addGroup innermost
    return (id, ⟨tree, id, innermost :: outer⟩)

/-- Adds a token to the innermost open group, and tells its number. -/
def token (b : Builder) (tok : Token) : Except TreeError (NodeId × Builder) :=
  match b with
  | ⟨tree, innermost, outer⟩ => do
    let (id, tree) ← tree.addToken innermost tok
    return (id, ⟨tree, innermost, outer⟩)

/-- Closes the innermost open group. The root is never closed. -/
def closeGroup (b : Builder) : Except TreeError Builder :=
  match b.outer with
  | [] => .error .unbalancedGroup
  | next :: outer => .ok { b with innermost := next, outer }

/-- The tree, if every group that was opened has been closed. -/
def finish (b : Builder) : Except TreeError Tree :=
  match b.outer with
  | [] => .ok b.tree
  | outer => .error (.unclosedGroups outer.length)

end Builder

end TokenHighlight
