import TokenHighlight.Highlight.Basic

/-!
# Bracket ranges

The range of a bracket is what lies between the two ends of its pair, the ends included. It is
looked for in every group around the bracket, from the nearest to the root, because the two ends
may lie in different groups. An opening end that is repeated begins the range anew, and an end
without a partner contributes nothing.

## Main definitions

* `Tree.spansFrom` — the ranges of a pair in a run of tokens
* `Tree.bracketRange` — the range of the pair that a token belongs to
* `Highlights.highlightBracket`
-/

namespace TokenHighlight

namespace Tree

/-- The ranges of a pair in a run of tokens. `span` holds, in reverse, the tokens since the last
opening end; they count only once the closing end is met. -/
def spansFrom (t : Tree) (pair : UInt32) : Option (List NodeId) → List NodeId →
    List (List NodeId)
  | _, [] => []
  | span, id :: rest =>
    if t.bracket? id = some (.opening pair) then t.spansFrom pair (some [id]) rest
    else if t.bracket? id = some (.closing pair) then
      match span with
      | some ids => (id :: ids).reverse :: t.spansFrom pair none rest
      | none => t.spansFrom pair none rest
    else t.spansFrom pair (span.map (id :: ·)) rest

/-- The ranges of a pair below a node. -/
def spansBelow (t : Tree) (pair : UInt32) (id : NodeId) : List NodeId :=
  (t.spansFrom pair none (t.flatten id)).flatten

/-- Keeps of every node in a list the first place, and leaves out those in `seen`. -/
def firstsFrom (seen : NodeSet) : List NodeId → List NodeId
  | [] => []
  | id :: rest =>
    if seen.contains id then firstsFrom seen rest else id :: firstsFrom (seen.insert id) rest

/-- The tokens in the range of the bracket that a token carries, in the order in which they are
found, each once. A token without bracket has no range. -/
def bracketRange (t : Tree) (id : NodeId) : List NodeId :=
  match t.bracket? id with
  | some b => firstsFrom ∅ ((t.ancestors id).flatMap (t.spansBelow b.pair))
  | none => []

end Tree

/-- Highlights the range of a bracket, and tells which tokens it has. -/
def Highlights.highlightBracket (h : Highlights) (id : NodeId) (c : Color) :
    Highlights × List NodeId :=
  let ids := h.tree.bracketRange id
  (h.markAll ids c, ids)

end TokenHighlight
