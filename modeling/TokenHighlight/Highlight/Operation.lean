import TokenHighlight.Highlight.Fill
import TokenHighlight.Highlight.Selection
import TokenHighlight.Highlight.Uses

/-!
# Operations

Everything that can be done to the highlights of a view, as data. An operation changes the
highlights and gives an answer. Who hears of it is not its business: listeners belong to the view.

## Main definitions

* `Operation` — what can be done
* `Reply` — what is answered
* `Operation.run`
-/

namespace TokenHighlight

/-- What can be done to the highlights of a view. -/
inductive Operation
  | setDefault (role : ColorRole) (color : Color)
  | overlayPalette (overrides : Palette.Overrides)
  | setHighlight (id : NodeId) (color : Color)
  | clearHighlight (id : NodeId)
  | clearAll
  | addTokens (ids : List NodeId) (color : Color)
  | addVarnodes (parent : NodeId) (varnodes : List UInt64) (color : Color)
      (special : Option SpecialUse) (specialColor : Color)
  | addOps (parent : NodeId) (ops : List UInt64) (color : Color)
  | select (id : NodeId) (lookup : BraceLookup)
  | fill
  | highlightBracket (id : NodeId) (color : Color)
  | highlightBrace (id : NodeId) (color : Color) (lookup : BraceLookup)

/-- What an operation answers. -/
inductive Reply
  | done
  /-- So many tokens were filled. -/
  | filled (count : Nat)
  /-- The tokens in the range of a bracket. -/
  | range (ids : List NodeId)
  /-- The partner of a brace, if it has one. -/
  | partner (id : Option NodeId)
deriving DecidableEq, Repr

namespace Operation

/-- Carries out an operation. -/
def run (h : Highlights) : Operation → Highlights × Reply
  | setDefault role c => ({ h with palette := h.palette.set role c }, .done)
  | overlayPalette o => ({ h with palette := h.palette.overlay o }, .done)
  | setHighlight id c => (h.mark id c, .done)
  | clearHighlight id => (h.unmark id, .done)
  | clearAll => (h.unmarkAll, .done)
  | addTokens ids c => (h.markAll ids c, .done)
  | addVarnodes parent vs c special sc => (h.addVarnodes parent vs c special sc, .done)
  | addOps parent ops c => (h.addOps parent ops c, .done)
  | select id lookup => (h.select lookup id, .done)
  | fill =>
    let (h, count) := h.fill
    (h, .filled count)
  | highlightBracket id c =>
    let (h, ids) := h.highlightBracket id c
    (h, .range ids)
  | highlightBrace id c lookup =>
    let (h, partner) := h.highlightBrace lookup id c
    (h, .partner partner)

end Operation

end TokenHighlight
