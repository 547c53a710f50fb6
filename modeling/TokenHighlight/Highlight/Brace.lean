import TokenHighlight.Highlight.Basic
import TokenHighlight.Tree.Brace

/-!
# Partners of braces

Of a pair of braces only the partner is highlighted, and flagged so that it can be displayed in a
way of its own; the brace that was asked about stays as it is.

## Main definitions

* `Highlights.bracePartner?` — the partner, if the host knows one and it is a token
* `Highlights.highlightBrace`
-/

namespace TokenHighlight.Highlights

/-- The partner of a brace: nothing for a node that is no brace, and nothing if the host's answer
is not a token of the tree. -/
def bracePartner? (h : Highlights) (lookup : BraceLookup) (id : NodeId) : Option NodeId :=
  if lookup.isBrace h.tree id then
    (lookup.partner? h.tree id).filter fun partner => (h.tree.token? partner).isSome
  else none

/-- Flags a token as a partner. -/
def setMatching (h : Highlights) (id : NodeId) : Highlights :=
  { h with tree := h.tree.modifyToken id fun tok => { tok with matching := true } }

/-- Flags and highlights the partner of a brace, and tells which it is. Without a partner nothing
changes. -/
def highlightBrace (h : Highlights) (lookup : BraceLookup) (id : NodeId) (c : Color) :
    Highlights × Option NodeId :=
  match h.bracePartner? lookup id with
  | some partner => ((h.setMatching partner).mark partner c, some partner)
  | none => (h, none)

end TokenHighlight.Highlights
