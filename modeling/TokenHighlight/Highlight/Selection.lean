import TokenHighlight.Highlight.Brace
import TokenHighlight.Highlight.Bracket

/-!
# Selecting a token

Selecting a token replaces all highlights: by the token itself in the highlight color and, in the
color for brackets, the range of the bracket and the partner of the brace that it may be.

## Main definitions

* `Highlights.select`
-/

namespace TokenHighlight.Highlights

/-- Replaces all highlights by those of a selected token. -/
def select (h : Highlights) (lookup : BraceLookup) (id : NodeId) : Highlights :=
  let h := h.unmarkAll.mark id h.palette.highlight
  let h := (h.highlightBracket id h.palette.paren).1
  (h.highlightBrace lookup id h.palette.paren).1

end TokenHighlight.Highlights
