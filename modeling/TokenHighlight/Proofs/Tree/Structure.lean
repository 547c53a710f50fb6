import TokenHighlight.Highlight.Bracket
import TokenHighlight.Proofs.Tree.Display
import TokenHighlight.Proofs.Tree.WellFormed
import TokenHighlight.Tree.Brace

/-!
# Questions that do not see what is displayed

Parents, children, document order and brackets are the same whatever is displayed. It is enough to
say so of the cleared tree: two trees that differ only in what is displayed have the same cleared
tree, and then the same answer to each of these questions.

A host's lookup for braces is code of its own and could look at colors. That it does not is a
property of the lookup, `BraceLookup.IsStructural`; the lookup by text has it.

## Main definitions

* `BraceLookup.IsStructural` — the answers do not depend on what is displayed

## Main results

* `Tree.tokens_cleared`, `Tree.children_cleared`, `Tree.bracketRange_cleared` — the questions
* `Tree.congr_of_cleared`, `Tree.WellFormed.of_cleared_eq` — from the cleared tree to any two trees
* `BraceLookup.isStructural_byText`, `BraceLookup.mem_tokens_of_partnerByText?` — the lookup by text
-/

namespace TokenHighlight

namespace Tree

variable {t t' : Tree}

/-! ### Links and document order -/

@[simp] theorem contains_cleared (t : Tree) (id : NodeId) :
    t.cleared.contains id = t.contains id := by
  rw [contains, contains, size_cleared]

@[simp] theorem parent?_cleared (t : Tree) (id : NodeId) : t.cleared.parent? id = t.parent? id := by
  rw [parent?, parent?, getElem?_nodes_cleared]
  rcases t.nodes[id]? with _ | ⟨p, cs | tok⟩ <;> rfl

@[simp] theorem children_cleared (t : Tree) (id : NodeId) :
    t.cleared.children id = t.children id := by
  rw [children, children, getElem?_nodes_cleared]
  rcases t.nodes[id]? with _ | ⟨p, cs | tok⟩ <;> rfl

@[simp] theorem drain_cleared (t : Tree) (steps : Nat) (stack : List NodeId) :
    t.cleared.drain steps stack = t.drain steps stack := by
  induction steps generalizing stack with
  | zero => cases stack <;> rfl
  | succ steps ih =>
    cases stack with
    | nil => rfl
    | cons id stack =>
      rw [drain, drain, getElem?_nodes_cleared]
      rcases t.nodes[id]? with _ | ⟨p, cs | tok⟩
      · rfl
      · exact ih _
      · exact congrArg (Option.map (id :: ·)) (ih stack)

@[simp] theorem flatten_cleared (t : Tree) (id : NodeId) : t.cleared.flatten id = t.flatten id := by
  rw [flatten, flatten, contains_cleared, drain_cleared, size_cleared]

@[simp] theorem tokens_cleared (t : Tree) : t.cleared.tokens = t.tokens :=
  t.flatten_cleared root

@[simp] theorem climb_cleared (t : Tree) (steps : Nat) (id : NodeId) :
    t.cleared.climb steps id = t.climb steps id := by
  induction steps generalizing id with
  | zero => rfl
  | succ steps ih => simp only [climb, parent?_cleared, ih]

@[simp] theorem ancestors_cleared (t : Tree) (id : NodeId) :
    t.cleared.ancestors id = t.ancestors id := by
  rw [ancestors, ancestors, size_cleared, climb_cleared]

/-! ### Brackets and braces -/

/-- A property of tokens that clearing does not change is a question about the structure. -/
theorem bind_token?_cleared {α : Type} {f : Token → Option α} (hf : ∀ tok, f tok.cleared = f tok)
    (t : Tree) (id : NodeId) : (t.cleared.token? id).bind f = (t.token? id).bind f := by
  rw [token?_cleared]
  cases t.token? id with
  | none => rfl
  | some tok => exact hf tok

@[simp] theorem bracket?_cleared (t : Tree) (id : NodeId) : t.cleared.bracket? id = t.bracket? id :=
  t.bind_token?_cleared (fun _ => rfl) id

@[simp] theorem spansFrom_cleared (t : Tree) (pair : UInt32) (span : Option (List NodeId))
    (ids : List NodeId) : t.cleared.spansFrom pair span ids = t.spansFrom pair span ids := by
  induction ids generalizing span with
  | nil => rfl
  | cons id rest ih => simp only [spansFrom, bracket?_cleared, ih]

@[simp] theorem bracketRange_cleared (t : Tree) (id : NodeId) :
    t.cleared.bracketRange id = t.bracketRange id := by
  have hspans : ∀ pair, t.cleared.spansBelow pair = t.spansBelow pair := by
    intro pair
    funext group
    rw [spansBelow, spansBelow, spansFrom_cleared, flatten_cleared]
  simp only [bracketRange, bracket?_cleared, ancestors_cleared, hspans]

@[simp] theorem braceDepth_cleared (t : Tree) (id : NodeId) :
    t.cleared.braceDepth id = t.braceDepth id := by
  rw [braceDepth, braceDepth, token?_cleared]
  cases t.token? id <;> rfl

/-! ### From the cleared tree to two trees -/

/-- A question that has the same answer for the cleared tree has the same answer for any two trees
that differ only in what is displayed. -/
theorem congr_of_cleared {α : Type} (question : Tree → α)
    (hq : ∀ t, question t.cleared = question t) (h : t.cleared = t'.cleared) :
    question t = question t' := by
  rw [← hq t, h, hq t']

/-- Trees that differ only in what is displayed have tokens at the same numbers. -/
theorem isSome_token?_of_cleared_eq (h : t.cleared = t'.cleared) (id : NodeId) :
    (t.token? id).isSome = (t'.token? id).isSome := by
  refine congr_of_cleared (fun t => (t.token? id).isSome) (fun t => ?_) h
  rw [token?_cleared, Option.isSome_map]

/-- Whether a tree is well formed does not depend on what is displayed. -/
theorem WellFormed.of_cleared_eq (h : t.WellFormed) (hcleared : t'.cleared = t.cleared) :
    t'.WellFormed := by
  have hparent : t'.parent? = t.parent? :=
    congr_of_cleared parent? (fun t => funext t.parent?_cleared) hcleared
  have hchildren : t'.children = t.children :=
    congr_of_cleared children (fun t => funext t.children_cleared) hcleared
  have hgroup : t'.isGroup = t.isGroup :=
    congr_of_cleared isGroup (fun t => funext t.isGroup_cleared) hcleared
  have hsize : t'.size = t.size := congr_of_cleared size size_cleared hcleared
  constructor
  · rw [hgroup]
    exact h.isGroup_root
  · rw [hparent]
    exact h.parent?_root
  · rw [hparent]
    exact h.lt_of_parent?
  · rw [hparent, hsize]
    exact h.exists_parent?
  · rw [hparent, hchildren]
    exact h.mem_children_iff
  · rw [hchildren]
    exact h.pairwise_children

end Tree

/-! ### Lookups for braces -/

namespace BraceLookup

/-- The answers of a lookup depend on the shape of the tree and on what its tokens are, and not on
what is displayed of them. -/
def IsStructural (lookup : BraceLookup) : Prop :=
  ∀ t t' : Tree, t.cleared = t'.cleared → ∀ id,
    lookup.isBrace t id = lookup.isBrace t' id ∧ lookup.partner? t id = lookup.partner? t' id

theorem isStructural_byText : byText.IsStructural := by
  intro t t' h id
  have hdepth : t.braceDepth = t'.braceDepth :=
    Tree.congr_of_cleared Tree.braceDepth (fun t => funext t.braceDepth_cleared) h
  have htokens : t.tokens = t'.tokens := Tree.congr_of_cleared Tree.tokens Tree.tokens_cleared h
  refine ⟨?_, ?_⟩
  · show decide (t.braceDepth id ≠ 0) = decide (t'.braceDepth id ≠ 0)
    rw [hdepth]
  · show partnerByText? t id = partnerByText? t' id
    rw [partnerByText?, partnerByText?, hdepth, htokens]

theorem mem_of_firstBalanced {δ : NodeId → Int} {depth : Int} {ids : List NodeId} {id : NodeId}
    (h : firstBalanced δ depth ids = some id) : id ∈ ids := by
  induction ids generalizing depth with
  | nil => cases h
  | cons x rest ih =>
    rw [firstBalanced] at h
    split at h
    · cases h
      exact List.mem_cons_self
    · exact List.mem_cons_of_mem _ (ih h)

/-- A partner by text is a token of the document. -/
theorem mem_tokens_of_partnerByText? {t : Tree} {id x : NodeId} (h : partnerByText? t id = some x) :
    x ∈ t.tokens := by
  rw [partnerByText?] at h
  split at h
  · exact (List.dropWhile_sublist _).mem (mem_of_firstBalanced h)
  · split at h
    · exact List.mem_reverse.1 ((List.dropWhile_sublist _).mem (mem_of_firstBalanced h))
    · cases h

/-- Only braces have partners by text. -/
theorem isBrace_of_partnerByText? {t : Tree} {id x : NodeId} (h : partnerByText? t id = some x) :
    byText.isBrace t id = true := by
  refine decide_eq_true fun hdepth => ?_
  rw [partnerByText?, hdepth, if_neg (by decide), if_neg (by decide)] at h
  cases h

end BraceLookup

end TokenHighlight
