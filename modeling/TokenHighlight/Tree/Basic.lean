import TokenHighlight.Token

/-!
# Token trees

A tree of groups with tokens at the leaves. Nodes are numbered in the order in which they were
added; node 0 is the root, which is a group. Each node names its parent, and each group lists its
children from left to right.

Every query accepts any number: a number that names no node has no parent, no children and no
token. That numbers fit together (every child names its parent, and the other way round) is a fact
about the trees that `empty`, `addGroup` and `addToken` make, not part of the type.

Numbers have no upper end here. Where they are kept in 32 bits a tree has at most 2^32 nodes and
refuses a further one, with an error of its own. `push` has neither that limit nor that error: what
is said of trees is said of those that stay below it, which are made alike with it and without it,
and no query depends on it. `Builder.Stacked` has the limit; there it is part of what is proved that
a tree is built just as far as its nodes can be numbered.

## Main definitions

* `NodeId`, `Content`, `Node`, `Tree`
* `Tree.empty`, `Tree.addGroup`, `Tree.addToken` — growing a tree, with `TreeError` for a parent
  that is missing or no group
* `Tree.parent?`, `Tree.children`, `Tree.isGroup`, `Tree.token?` — looking at a node
* `Tree.modifyToken` — changing the display attributes of a token

## Main statements

* `Tree.contains_eq_isGroup_or_isSome` — a number names a group, a token or nothing
* `Tree.token?_modifyToken`, `Tree.children_modifyToken`, `Tree.parent?_modifyToken` — changing a
  token changes that token only, and never the shape of the tree
-/

namespace TokenHighlight

/-- A node is named by its number in order of creation. -/
abbrev NodeId := Nat

/-- What a node is: a group with its children from left to right, or a token. -/
inductive Content
  | group (children : Array NodeId)
  | token (token : Token)
deriving DecidableEq, Repr

/-- A node with its link upwards; only the root has none. -/
structure Node where
  parent : Option NodeId
  content : Content
deriving DecidableEq, Repr

/-- Lists a child as the last one of a group. A token is left as it is. -/
def Node.addChild (child : NodeId) : Node → Node
  | ⟨parent, .group cs⟩ => ⟨parent, .group (cs.push child)⟩
  | ⟨parent, .token tok⟩ => ⟨parent, .token tok⟩

/-- Changes the token that a node is. A group is left as it is. -/
def Node.mapToken (f : Token → Token) : Node → Node
  | ⟨parent, .token tok⟩ => ⟨parent, .token (f tok)⟩
  | ⟨parent, .group cs⟩ => ⟨parent, .group cs⟩

/-- The nodes of a tree, each at the place that its number gives. -/
structure Tree where
  nodes : Array Node
deriving DecidableEq, Repr

/-- Why a tree cannot be made or extended as asked. -/
inductive TreeError
  /-- No node has this number. -/
  | unknownNode (id : NodeId)
  /-- The node is a token, where a group is needed. -/
  | notAGroup (id : NodeId)
  /-- A described tree has a token at its root. -/
  | rootNotGroup
  /-- A group is closed while none is open. -/
  | unbalancedGroup
  /-- So many groups are still open at the end. -/
  | unclosedGroups (count : Nat)
deriving DecidableEq, Repr

/-- What to tell about a tree that cannot be made or extended. -/
def TreeError.message : TreeError → String
  | unknownNode id => s!"Node #{id} does not exist in this tree"
  | notAGroup id => s!"Node #{id} is a token and cannot have children"
  | rootNotGroup => "Root of a tree spec must be a group"
  | unbalancedGroup => "Closed a group that was never opened"
  | unclosedGroups count => s!"{count} group(s) left open"

namespace Tree

/-- The number of the root. -/
def root : NodeId := 0

/-- The tree that is only an empty root group. -/
def empty : Tree :=
  ⟨#[⟨none, .group #[]⟩]⟩

/-! ### Looking at a tree -/

/-- How many nodes there are, groups and tokens together. -/
def size (t : Tree) : Nat :=
  t.nodes.size

/-- Whether a number names a node. -/
def contains (t : Tree) (id : NodeId) : Bool :=
  id < t.size

/-- The group around a node. The root has none, and neither has a number without a node. -/
def parent? (t : Tree) (id : NodeId) : Option NodeId :=
  t.nodes[id]?.bind Node.parent

/-- The children of a group from left to right; nothing else has any. -/
def children (t : Tree) (id : NodeId) : List NodeId :=
  match t.nodes[id]? with
  | some ⟨_, .group cs⟩ => cs.toList
  | _ => []

/-- Whether a number names a group. -/
def isGroup (t : Tree) (id : NodeId) : Bool :=
  match t.nodes[id]? with
  | some ⟨_, .group _⟩ => true
  | _ => false

/-- The token with this number, if that is what it names. -/
def token? (t : Tree) (id : NodeId) : Option Token :=
  match t.nodes[id]? with
  | some ⟨_, .token tok⟩ => some tok
  | _ => none

/-- The bracket that a token carries, if the number names a token that carries one. -/
def bracket? (t : Tree) (id : NodeId) : Option Bracket :=
  (t.token? id).bind (·.bracket)

/-- Whether the root group has no children. -/
def isEmpty (t : Tree) : Bool :=
  (t.children root).isEmpty

theorem contains_iff {t : Tree} {id : NodeId} : t.contains id = true ↔ id < t.size := by
  simp [contains]

/-- A number names a group, a token or nothing. -/
theorem contains_eq_isGroup_or_isSome (t : Tree) (id : NodeId) :
    t.contains id = (t.isGroup id || (t.token? id).isSome) := by
  by_cases h : id < t.nodes.size
  · rcases hn : t.nodes[id] with ⟨p, cs | tok⟩ <;> simp [contains, size, isGroup, token?, h, hn]
  · simp [contains, size, isGroup, token?, h]

theorem children_eq_nil_of_token? {t : Tree} {id : NodeId} {tok : Token}
    (h : t.token? id = some tok) : t.children id = [] := by
  unfold token? at h
  unfold children
  split at h <;> simp_all

/-! ### Growing a tree -/

/-- Adds a node as the last child of a group. -/
def push (t : Tree) (parent : NodeId) (content : Content) : Except TreeError (NodeId × Tree) :=
  match t.nodes[parent]? with
  | none => .error (.unknownNode parent)
  | some ⟨_, .token _⟩ => .error (.notAGroup parent)
  | some ⟨_, .group _⟩ =>
    .ok (t.size, ⟨(t.nodes.modify parent (Node.addChild t.size)).push ⟨some parent, content⟩⟩)

/-- Adds an empty group as the last child of a group, and tells its number. -/
def addGroup (t : Tree) (parent : NodeId) : Except TreeError (NodeId × Tree) :=
  t.push parent (.group #[])

/-- Adds a token as the last child of a group, and tells its number. -/
def addToken (t : Tree) (parent : NodeId) (token : Token) : Except TreeError (NodeId × Tree) :=
  t.push parent (.token token)

/-! ### Changing a token -/

/-- Changes the token with this number. Any other number changes nothing. -/
def modifyToken (t : Tree) (id : NodeId) (f : Token → Token) : Tree :=
  ⟨t.nodes.modify id (Node.mapToken f)⟩

@[simp] theorem size_modifyToken (t : Tree) (id : NodeId) (f : Token → Token) :
    (t.modifyToken id f).size = t.size := by
  simp [modifyToken, size]

@[simp] theorem contains_modifyToken (t : Tree) (id other : NodeId) (f : Token → Token) :
    (t.modifyToken id f).contains other = t.contains other := by
  simp [contains]

theorem getElem?_nodes_modifyToken (t : Tree) (id other : NodeId) (f : Token → Token) :
    (t.modifyToken id f).nodes[other]? =
      if id = other then t.nodes[other]?.map (Node.mapToken f) else t.nodes[other]? := by
  simp [modifyToken, Array.getElem?_modify]

/-- Only the token that is named changes. -/
theorem token?_modifyToken (t : Tree) (id other : NodeId) (f : Token → Token) :
    (t.modifyToken id f).token? other =
      if id = other then (t.token? other).map f else t.token? other := by
  by_cases h : id = other
  · simp only [token?, getElem?_nodes_modifyToken, if_pos h]
    rcases t.nodes[other]? with _ | ⟨p, cs | tok⟩ <;> rfl
  · simp only [token?, getElem?_nodes_modifyToken, if_neg h]

@[simp] theorem parent?_modifyToken (t : Tree) (id other : NodeId) (f : Token → Token) :
    (t.modifyToken id f).parent? other = t.parent? other := by
  by_cases h : id = other
  · simp only [parent?, getElem?_nodes_modifyToken, if_pos h]
    rcases t.nodes[other]? with _ | ⟨p, cs | tok⟩ <;> rfl
  · simp only [parent?, getElem?_nodes_modifyToken, if_neg h]

@[simp] theorem children_modifyToken (t : Tree) (id other : NodeId) (f : Token → Token) :
    (t.modifyToken id f).children other = t.children other := by
  by_cases h : id = other
  · simp only [children, getElem?_nodes_modifyToken, if_pos h]
    rcases t.nodes[other]? with _ | ⟨p, cs | tok⟩ <;> rfl
  · simp only [children, getElem?_nodes_modifyToken, if_neg h]

@[simp] theorem isGroup_modifyToken (t : Tree) (id other : NodeId) (f : Token → Token) :
    (t.modifyToken id f).isGroup other = t.isGroup other := by
  by_cases h : id = other
  · simp only [isGroup, getElem?_nodes_modifyToken, if_pos h]
    rcases t.nodes[other]? with _ | ⟨p, cs | tok⟩ <;> rfl
  · simp only [isGroup, getElem?_nodes_modifyToken, if_neg h]

end Tree

end TokenHighlight
