import TokenHighlight.Tree.Order

/-!
# Plain-text rendering

A highlighted tree as plain text: highlighted tokens stand in square brackets, partners of braces
are followed by a star. The legend has a line for each highlighted token, with its place among the
tokens in document order, its text and its color.

Only the attributes of the tokens are read, not the set of highlighted nodes.

## Main definitions

* `Tree.annotate` — the annotated text
* `Tree.legend` — the lines of the legend
-/

namespace TokenHighlight

/-- Fills up with blanks on the left. -/
def padLeft (width : Nat) (s : String) : String :=
  String.ofList (List.replicate (width - s.length) ' ') ++ s

theorem length_padLeft (width : Nat) (s : String) :
    (padLeft width s).length = max width s.length := by
  simp [padLeft]
  omega

/-- Fills up with blanks on the right. Every character counts as one, however wide it is shown. -/
def padRight (width : Nat) (s : String) : String :=
  s ++ String.ofList (List.replicate (width - s.length) ' ')

theorem length_padRight (width : Nat) (s : String) :
    (padRight width s).length = max width s.length := by
  simp [padRight]
  omega

/-- A token as it is annotated. -/
def Token.annotate (tok : Token) : String :=
  (if tok.isHighlighted then "[" ++ tok.text ++ "]" else tok.text) ++
    if tok.matching then "*" else ""

/-- The line for a token at a place among all tokens, if it is highlighted. -/
def Token.legendLine? (index : Nat) (tok : Token) : Option String :=
  tok.highlight.map fun c =>
    padLeft 4 (toString index) ++ "  " ++ padRight 12 tok.text ++ " " ++ c.toHex

namespace Tree

/-- The text of the tree with its highlights. -/
def annotate (t : Tree) : String :=
  String.join ((t.tokens.filterMap t.token?).map Token.annotate)

/-- The lines of the legend, in document order. -/
def legend (t : Tree) : List String :=
  t.tokens.zipIdx.filterMap fun (id, index) => (t.token? id).bind (Token.legendLine? index)

end Tree

end TokenHighlight
