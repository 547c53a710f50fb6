import Std.Data.ExtTreeSet
import TokenHighlight.Palette
import TokenHighlight.Tree.Order

/-!
# Highlights of a tree

Which tokens of a tree are highlighted is kept twice: as the colors of the tokens, for whoever
displays them, and as a set of nodes, for whoever asks how many there are and which. The functions
here change both together; whoever changes the tree by other means answers for the agreement.

## Main definitions

* `NodeSet`, `Highlights` — the set, and the state of one view
* `Highlights.mark`, `Highlights.unmark`, `Highlights.unmarkAll` — the changes that all others are
  made of
* `Highlights.isHighlighted`, `Highlights.unique?`, `Highlights.searchText?` — questions

## Main statements

* `Highlights.isHighlighted_mark`, `Highlights.isHighlighted_unmark`,
  `Highlights.isHighlighted_unmarkAll` — what is in the set behind a change
-/

namespace TokenHighlight

/-- A finite set of nodes. Two sets with the same members are equal. -/
abbrev NodeSet := Std.ExtTreeSet NodeId compare

/-- A tree with its highlighted nodes, and the default colors for highlighting more. -/
structure Highlights where
  tree : Tree
  marked : NodeSet
  palette : Palette

namespace Highlights

/-- A tree of which nothing is known to be highlighted. -/
def start (tree : Tree) (palette : Palette) : Highlights :=
  ⟨tree, ∅, palette⟩

/-! ### Changing single tokens -/

/-- Gives a token a color, whatever it had before. Groups and foreign numbers are passed over. -/
def mark (h : Highlights) (id : NodeId) (c : Color) : Highlights :=
  match h.tree.token? id with
  | some _ =>
    { h with
      tree := h.tree.modifyToken id fun tok => { tok with highlight := some c }
      marked := h.marked.insert id }
  | none => h

theorem mark_eq_self {h : Highlights} {id : NodeId} (hid : h.tree.token? id = none) (c : Color) :
    h.mark id c = h := by
  simp [mark, hid]

@[simp] theorem palette_mark (h : Highlights) (id : NodeId) (c : Color) :
    (h.mark id c).palette = h.palette := by
  unfold mark
  split <;> rfl

/-- Gives several tokens a color, one after the other. -/
def markAll (h : Highlights) (ids : List NodeId) (c : Color) : Highlights :=
  ids.foldl (fun h id => h.mark id c) h

@[simp] theorem palette_markAll (h : Highlights) (ids : List NodeId) (c : Color) :
    (h.markAll ids c).palette = h.palette := by
  induction ids generalizing h with
  | nil => rfl
  | cons id ids ih => exact (ih _).trans (palette_mark h id c)

/-- Takes color and flag from a token. A number in the set is dropped even if it names no token. -/
def unmark (h : Highlights) (id : NodeId) : Highlights :=
  { h with tree := h.tree.modifyToken id Token.cleared, marked := h.marked.erase id }

/-- Takes color and flag from every token in the set, and empties it. -/
def unmarkAll (h : Highlights) : Highlights :=
  { h with
    tree := h.marked.toList.foldl (fun t id => t.modifyToken id Token.cleared) h.tree
    marked := ∅ }

/-! ### Questions -/

/-- Whether a number is in the set. -/
def isHighlighted (h : Highlights) (id : NodeId) : Bool :=
  h.marked.contains id

/-- Behind a mark a number is in the set if it was before, or if it names the token marked. -/
theorem isHighlighted_mark (h : Highlights) (id other : NodeId) (c : Color) :
    (h.mark id c).isHighlighted other =
      (h.isHighlighted other || (decide (id = other) && (h.tree.token? id).isSome)) := by
  unfold mark isHighlighted
  split <;> rename_i ht
  · by_cases hid : id = other
    · subst hid
      simp [ht]
    · simp [Std.ExtTreeSet.contains_insert, hid]
  · simp [ht]

@[simp] theorem isHighlighted_unmark (h : Highlights) (id other : NodeId) :
    (h.unmark id).isHighlighted other = (decide (id ≠ other) && h.isHighlighted other) := by
  by_cases hid : id = other <;> simp [unmark, isHighlighted, Std.ExtTreeSet.contains_erase, hid]

@[simp] theorem isHighlighted_unmarkAll (h : Highlights) (id : NodeId) :
    h.unmarkAll.isHighlighted id = false := by
  simp [unmarkAll, isHighlighted]

/-- How many numbers are in the set. -/
def count (h : Highlights) : Nat :=
  h.marked.size

/-- The highlighted node if there is just one. None and several both mean that no selection is
clear. -/
def unique? (h : Highlights) : Option NodeId :=
  match h.marked.toList with
  | [id] => some id
  | _ => none

/-- The text of the only highlighted token, to begin a search with. -/
def searchText? (h : Highlights) : Option String :=
  (h.unique?.bind h.tree.token?).map (·.text)

end Highlights

end TokenHighlight
