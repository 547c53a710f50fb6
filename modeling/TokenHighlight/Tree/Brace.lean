import TokenHighlight.Tree.Order

/-!
# Brace lookup

What counts as the brace of a code block, and which braces belong together, is for the host to say.
The lookup by text takes the tokens that read exactly as an opening or a closing curly brace and
pairs them by depth in document order, whatever the groups are.

## Main definitions

* `BraceLookup` — a host's answers
* `Tree.braceDepth` — what a token adds to the nesting depth
* `BraceLookup.byText` — the lookup by text and depth
-/

namespace TokenHighlight

/-- What a host says about the braces of a tree. The two answers need not fit together. -/
structure BraceLookup where
  /-- Whether a node delimits a code block. -/
  isBrace : Tree → NodeId → Bool
  /-- The node that pairs with a node. -/
  partner? : Tree → NodeId → Option NodeId

/-- What a token adds to the nesting depth of code blocks: one, minus one, or nothing. -/
def Tree.braceDepth (t : Tree) (id : NodeId) : Int :=
  match t.token? id with
  | some tok => if tok.text = "\x7b" then 1 else if tok.text = "\x7d" then -1 else 0
  | none => 0

namespace BraceLookup

/-- The first node at which a sum of depths, begun with `depth`, comes to zero. -/
def firstBalanced (δ : NodeId → Int) : Int → List NodeId → Option NodeId
  | _, [] => none
  | depth, id :: rest =>
    if depth + δ id = 0 then some id else firstBalanced δ (depth + δ id) rest

/-- The partner by text: from an opening brace on, the first closing one at which the depth is
back to where it was; from a closing brace the same backwards. -/
def partnerByText? (t : Tree) (id : NodeId) : Option NodeId :=
  if t.braceDepth id = 1 then
    firstBalanced t.braceDepth 0 (t.tokens.dropWhile (· ≠ id))
  else if t.braceDepth id = -1 then
    firstBalanced (- t.braceDepth ·) 0 (t.tokens.reverse.dropWhile (· ≠ id))
  else none

/-- The lookup that goes by the texts of tokens. -/
def byText : BraceLookup where
  isBrace t id := t.braceDepth id ≠ 0
  partner? := partnerByText?

end BraceLookup

end TokenHighlight
