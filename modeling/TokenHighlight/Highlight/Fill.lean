import TokenHighlight.Highlight.Basic

/-!
# Filling gaps

Punctuation and keywords without an address break up a run of highlighted tokens. A gap is what
lies between two highlighted children of a group when nothing there is highlighted, has an address
or is a group. It takes the color of the token before it.

## Main definitions

* `Tree.gapsFrom` — the tokens in gaps of a run of siblings, with the colors they take
* `Highlights.gaps` — those of all groups that have a highlighted child
* `Highlights.fill`
-/

namespace TokenHighlight

/-- The tokens in gaps of a run of siblings, with the colors that they take. `run` holds the color
of the last highlighted sibling and, in reverse, the tokens since then that may turn out to be in a
gap; it is missing where no gap can have begun. -/
def Tree.gapsFrom (t : Tree) : Option (Color × List NodeId) → List NodeId →
    List (NodeId × Color)
  | _, [] => []
  | run, id :: rest =>
    match t.token? id with
    | none => t.gapsFrom none rest
    | some tok =>
      match tok.highlight, tok.address with
      | some c, _ =>
        (match run with
          | some (before, gap) => gap.reverse.map fun id => (id, before)
          | none => []) ++ t.gapsFrom (some (c, [])) rest
      | none, some _ => t.gapsFrom none rest
      | none, none => t.gapsFrom (run.map fun (before, gap) => (before, id :: gap)) rest

namespace Highlights

/-- The groups around the nodes in the set, each once, in order of their numbers. -/
def highlightedGroups (h : Highlights) : List NodeId :=
  (Std.ExtTreeSet.ofList (h.marked.toList.filterMap h.tree.parent?) compare).toList

/-- The tokens in gaps, with the colors that they take. -/
def gaps (h : Highlights) : List (NodeId × Color) :=
  h.highlightedGroups.flatMap fun group => h.tree.gapsFrom none (h.tree.children group)

/-- Highlights one token of a gap and counts it, unless it has a color. -/
def fillOne (state : Highlights × Nat) (gap : NodeId × Color) : Highlights × Nat :=
  match state.1.tree.token? gap.1 with
  | some tok => if tok.isHighlighted then state else (state.1.mark gap.1 gap.2, state.2 + 1)
  | none => state

/-- Fills every gap, and tells how many tokens were highlighted. -/
def fill (h : Highlights) : Highlights × Nat :=
  h.gaps.foldl fillOne (h, 0)

end Highlights

end TokenHighlight
