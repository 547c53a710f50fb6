import TokenHighlight.Proofs.Highlight.Uses
import TokenHighlight.View

/-!
# Many tokens at once

Three operations highlight many tokens: those that are listed, the uses of operations below a node,
and the uses of variables below a node. All of them come to highlighting token by token, and
listeners are all who can tell the difference, since they hear of one operation instead of many.

The last of the three has two colors and decides for every token in turn which of them it takes,
while the tree is changing. It might as well go through the document twice, once for the uses and
then for the special ones: a mark does not change what a token refers to, and where both colors
apply the second one wins. `Highlights.addVarnodes_eq_markAll` says so. The rest is about lists of
marks, where only membership counts, and only of tokens.

## Main definitions

* `Tree.tokensBelow` — the tokens below a node that have a property
* `View.setEach` — highlighting token by token
* `Highlights.Adds` — highlights are added, and nothing else happens to colors, flags and the set

## Main results

* `Highlights.addVarnodes_eq_markAll`, `Highlights.addOps_eq_markAll` — one loop with two colors is
  two passes, one with one color is one
* `View.setEach_eq` — single operations leave what the operation for all of them leaves
* `View.bulk_eq_setEach` — the whole contract of the three operations
-/

namespace TokenHighlight

namespace Tree

variable {t : Tree} {parent x : NodeId} {P : Token → Prop} [DecidablePred P]

/-- The tokens below a node that have a property, in document order. -/
def tokensBelow (t : Tree) (parent : NodeId) (P : Token → Prop) [DecidablePred P] : List NodeId :=
  (t.flatten parent).filter fun id => ∃ tok ∈ t.token? id, P tok

theorem mem_tokensBelow_iff :
    x ∈ t.tokensBelow parent P ↔
      x ∈ t.flatten parent ∧ ∃ tok, t.token? x = some tok ∧ P tok := by
  rw [tokensBelow, List.mem_filter, decide_eq_true_iff]
  rfl

end Tree

namespace Highlights

variable {h a b d : Highlights} {x : NodeId} {ids ids' : List NodeId}

/-! ### One loop and two passes -/

/-- **One loop with two colors is two passes**, the second one over the special uses alone. -/
theorem addVarnodes_eq_markAll (h : Highlights) (parent : NodeId) (vs : List UInt64) (c : Color)
    (special : Option SpecialUse) (sc : Color) :
    h.addVarnodes parent vs c special sc =
      (h.markAll (h.tree.tokensBelow parent fun tok => ∃ v ∈ vs, tok.varnode = some v) c).markAll
        (h.tree.tokensBelow parent fun tok =>
          ∃ s ∈ special, tok.varnode = some s.varnode ∧ tok.op = some s.op) sc := by
  refine ext_of_token? ?_ ?_ ?_ ?_
  · rw [(changes_addVarnodes h parent vs c special sc).cleared_eq,
      ((changes_markAll h _ c).trans (changes_markAll _ _ sc)).cleared_eq]
  · intro x
    rw [token?_addVarnodes, token?_markAll, token?_markAll]
    simp only [Tree.mem_tokensBelow_iff, ← Token.usesVarnode_iff, ← Token.any_isOf_iff]
    by_cases hx : x ∈ h.tree.flatten parent
    · cases ht : h.tree.token? x with
      | none => simp
      | some tok =>
        cases huse : tok.usesVarnode vs <;> cases hspecial : special.any (·.isOf tok) <;>
          simp [hx, Token.withUse, huse, hspecial]
    · simp [hx]
  · intro x
    rw [addVarnodes, isHighlighted_foldl_markVarnode, isHighlighted_markAll, isSome_token?_markAll,
      isHighlighted_markAll, Tree.shows]
    simp only [Tree.mem_tokensBelow_iff, ← Token.usesVarnode_iff, ← Token.any_isOf_iff]
    by_cases hx : x ∈ h.tree.flatten parent
    · cases ht : h.tree.token? x with
      | none => simp
      | some tok => simp [hx, Bool.or_assoc]
    · simp [hx]
  · rw [palette_addVarnodes, palette_markAll, palette_markAll]

theorem addOps_eq_markAll (h : Highlights) (parent : NodeId) (ops : List UInt64) (c : Color) :
    h.addOps parent ops c =
      h.markAll (h.tree.tokensBelow parent fun tok => ∃ op ∈ ops, tok.op = some op) c := by
  refine congrArg (h.markAll · c) (List.filter_congr fun id _ => ?_)
  rw [Bool.eq_iff_iff, Option.any_eq_true, decide_eq_true_iff]
  simp only [Token.usesOp_iff, Option.mem_def]

/-! ### What marks leave alone -/

/-- Highlights are added, or take another color. No flag changes, and nothing that was highlighted
ceases to be. -/
structure Adds (a b : Highlights) : Prop where
  isMatching : ∀ x, b.tree.isMatching x = a.tree.isMatching x
  isHighlighted : ∀ x, a.isHighlighted x = true → b.isHighlighted x = true
  isColored : ∀ x, a.tree.isColored x = true → b.tree.isColored x = true

theorem Adds.trans (hab : Adds a b) (hbd : Adds b d) : Adds a d where
  isMatching x := (hbd.isMatching x).trans (hab.isMatching x)
  isHighlighted x hx := hbd.isHighlighted x (hab.isHighlighted x hx)
  isColored x hx := hbd.isColored x (hab.isColored x hx)

theorem adds_markAll (h : Highlights) (ids : List NodeId) (c : Color) :
    h.Adds (h.markAll ids c) where
  isMatching x := by
    rw [Tree.isMatching, Tree.isMatching, Tree.shows, Tree.shows, token?_markAll]
    split
    · exact Option.any_map
    · rfl
  isHighlighted x hx := by
    rw [isHighlighted_markAll, hx, Bool.true_or]
  isColored x hx := by
    rw [Tree.isColored, Tree.shows] at hx ⊢
    rw [token?_markAll]
    split
    · cases htok : h.tree.token? x with
      | none => rw [htok] at hx; cases hx
      | some tok => rfl
    · exact hx

end Highlights

namespace View

variable {ι α : Type}

/-! ### Token by token -/

/-- Highlights some tokens by one operation for each, as they are listed. -/
def setEach (v : View ι α) (ids : List NodeId) (c : Color) : View ι α :=
  ids.foldl (fun v id => (v.perform (.setHighlight id c)).view) v

/-- **Single operations leave what the operation for all of them leaves.** -/
theorem setEach_eq (v : View ι α) (ids : List NodeId) (c : Color) :
    v.setEach ids c = { v with highlights := v.highlights.markAll ids c } := by
  induction ids generalizing v with
  | nil => rfl
  | cons id ids ih =>
    rw [setEach, List.foldl_cons, ← setEach, ih, perform_view]
    rfl

/-! ### The contract of the three operations -/

/-- **Highlighting many tokens at once is highlighting them one by one**, in any state of any tree.
The uses of variables are highlighted in one pass and the special uses in a second one, the uses of
operations in one. In each pass it makes no difference in which order tokens are listed, how often,
and what groups and numbers without a node are listed with them. No flag changes, and nothing ceases
to be highlighted; and what is not below the node stays as it is. -/
theorem bulk_eq_setEach (v : View ι α) (parent : NodeId) (vs ops : List UInt64)
    (special : Option SpecialUse) (ids : List NodeId) (c sc : Color) :
    let uses := v.tree.tokensBelow parent fun tok => ∃ v ∈ vs, tok.varnode = some v
    let specialUses := v.tree.tokensBelow parent fun tok =>
      ∃ s ∈ special, tok.varnode = some s.varnode ∧ tok.op = some s.op
    let opUses := v.tree.tokensBelow parent fun tok => ∃ op ∈ ops, tok.op = some op
    let all : Operation → View ι α := fun op => (v.perform op).view
    (all (.addVarnodes parent vs c special sc) =
        ((all (.addTokens uses c)).perform (.addTokens specialUses sc)).view ∧
      all (.addVarnodes parent vs c special sc) = (v.setEach uses c).setEach specialUses sc) ∧
    (all (.addOps parent ops c) = all (.addTokens opUses c) ∧
      all (.addOps parent ops c) = v.setEach opUses c) ∧
    all (.addTokens ids c) = v.setEach ids c ∧
    (∀ (w : View ι α) (ids ids' : List NodeId) (c : Color),
      (∀ x, (w.tree.token? x).isSome = true → (x ∈ ids ↔ x ∈ ids')) →
        w.setEach ids c = w.setEach ids' c) ∧
    (∀ op ∈ [.addVarnodes parent vs c special sc, .addOps parent ops c, .addTokens ids c],
      v.highlights.Adds (all op).highlights) ∧
    (∀ op ∈ [.addVarnodes parent vs c special sc, .addOps parent ops c],
      ∀ x, x ∉ v.tree.flatten parent → v.highlights.SameAt (all op).highlights x) := by
  intro uses specialUses opUses all
  have htokens : ∀ (w : View ι α) ids c, (w.perform (.addTokens ids c)).view = w.setEach ids c := by
    intro w ids c
    rw [perform_view, setEach_eq]
    rfl
  have hvarnodes : all (.addVarnodes parent vs c special sc) =
      (v.setEach uses c).setEach specialUses sc := by
    show (v.perform _).view = _
    rw [perform_view, setEach_eq, setEach_eq]
    exact congrArg (View.mk · v.listeners)
      (v.highlights.addVarnodes_eq_markAll parent vs c special sc)
  have hops : all (.addOps parent ops c) = v.setEach opUses c := by
    show (v.perform _).view = _
    rw [perform_view, setEach_eq]
    exact congrArg (View.mk · v.listeners) (v.highlights.addOps_eq_markAll parent ops c)
  refine ⟨⟨?_, hvarnodes⟩, ⟨?_, hops⟩, htokens v ids c, ?_, ?_, ?_⟩
  · rw [hvarnodes, htokens]
    exact congrArg (·.setEach specialUses sc) (htokens v uses c).symm
  · rw [hops]
    exact (htokens v opUses c).symm
  · intro w ids ids' c hids
    rw [setEach_eq, setEach_eq, Highlights.markAll_congr_of_tokens hids]
  · simp only [List.forall_mem_cons]
    refine ⟨?_, ?_, ?_, List.forall_mem_nil _⟩
    · rw [hvarnodes, setEach_eq, setEach_eq]
      exact (v.highlights.adds_markAll uses c).trans (Highlights.adds_markAll _ specialUses sc)
    · rw [hops, setEach_eq]
      exact v.highlights.adds_markAll opUses c
    · show v.highlights.Adds (v.perform _).view.highlights
      rw [perform_view]
      exact v.highlights.adds_markAll ids c
  · have hbelow : ∀ {P : Token → Prop} [DecidablePred P] {x}, x ∉ v.tree.flatten parent →
        x ∉ v.tree.tokensBelow parent P := by
      intro P _ x hx hmem
      exact hx (Tree.mem_tokensBelow_iff.1 hmem).1
    simp only [List.forall_mem_cons]
    refine ⟨?_, ?_, List.forall_mem_nil _⟩
    · intro x hx
      rw [hvarnodes, setEach_eq, setEach_eq]
      exact (Highlights.sameAt_markAll (hbelow hx) c).trans
        (Highlights.sameAt_markAll (hbelow hx) sc)
    · intro x hx
      rw [hops, setEach_eq]
      exact Highlights.sameAt_markAll (hbelow hx) c

end View

end TokenHighlight
