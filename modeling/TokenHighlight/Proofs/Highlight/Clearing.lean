import TokenHighlight.Proofs.Highlight.Agreement

/-!
# Clearing

Clearing all highlights visits the tokens in the set and no others. It leaves nothing displayed all
the same, because no token outside the set has anything to clear: its color is missing since set and
colors agree, and its flag is missing since a flag is set only on a token that is marked with it,
and a mark is taken away only together with the flag.

What is left is the tree that no operation has ever touched: no change alters the cleared tree, and
additions come to the same before and after clearing.

## Main definitions

* `Highlights.FlagMarked` — a number with a flag is in the set
* `Highlights.Step.onTree` — the share of a step in the tree, highlights aside

## Main results

* `Highlights.flagMarked_run` — in a run every flag is in the set
* `Highlights.cleared_run` — operations have no share in the cleared tree
* `Highlights.tree_unmarkAll` — clearing all gives the cleared tree
* `Highlights.clearAll_restores` — behind a run, it gives the tree of the additions alone
-/

namespace TokenHighlight

namespace Highlights

variable {h a b : Highlights} {id : NodeId}

/-! ### Flags behind a change -/

theorem matching_cleared (tok : Token) : tok.cleared.matching = false := rfl

theorem isMatching_mark (h : Highlights) (id other : NodeId) (c : Color) :
    (h.mark id c).tree.isMatching other = h.tree.isMatching other := by
  rw [tree_mark]
  refine Tree.shows_modifyToken_of_eq ?_ h.tree id other
  exact fun _ => rfl

theorem isMatching_setMatching (h : Highlights) (id other : NodeId) :
    (h.setMatching id).tree.isMatching other =
      (h.tree.isMatching other || (decide (id = other) && (h.tree.token? id).isSome)) := by
  refine Tree.shows_modifyToken_of_true ?_ h.tree id other
  exact fun _ => rfl

theorem isMatching_unmark (h : Highlights) (id other : NodeId) :
    (h.unmark id).tree.isMatching other = (decide (id ≠ other) && h.tree.isMatching other) :=
  Tree.shows_modifyToken_of_false matching_cleared h.tree id other

/-! ### Flags are in the set -/

/-- If the number names a token with a flag, it is in the set. -/
def FlagMarked (h : Highlights) (id : NodeId) : Prop :=
  h.tree.isMatching id = true → h.isHighlighted id = true

theorem Change.flagMarked (hc : Change a b) (hf : a.FlagMarked id) : b.FlagMarked id := by
  cases hc with
  | mark other c =>
    intro hm
    rw [isMatching_mark] at hm
    rw [isHighlighted_mark, hf hm, Bool.true_or]
  | unmark other =>
    intro hm
    rw [isMatching_unmark, Bool.and_eq_true] at hm
    rw [isHighlighted_unmark, hf hm.2, hm.1]
    rfl
  | unmarkAll =>
    intro hm
    rw [Tree.isMatching, shows_unmarkAll matching_cleared, Bool.and_eq_true] at hm
    rw [hf hm.2] at hm
    cases hm.1
  | pair other c hid =>
    intro hm
    rw [isMatching_mark, isMatching_setMatching, hid, Bool.and_true, Bool.or_eq_true] at hm
    have hid' : ((a.setMatching other).tree.token? other).isSome = true :=
      (a.tree.isSome_token?_modifyToken other other _).trans hid
    rw [isHighlighted_mark, hid', Bool.and_true, Bool.or_eq_true]
    exact hm.imp_left hf
  | recolor p => exact hf

theorem FlagMarked.step (hf : h.FlagMarked id) {s : Step} (hplain : s.IsPlain) :
    (h.step s).FlagMarked id := by
  cases s with
  | operate op =>
    exact (op.run_changes h).preserves (P := fun h => h.FlagMarked id) Change.flagMarked hf
  | add x =>
    show (h.tree.add x).isMatching id = true → h.isHighlighted id = true
    rw [Tree.isMatching, Tree.shows_add _ hplain matching_cleared]
    exact hf
  | renew tree =>
    show tree.isMatching id = true → h.unmarkAll.isHighlighted id = true
    rw [Tree.isMatching, hplain.2.shows matching_cleared]
    exact fun hfalse => absurd hfalse Bool.false_ne_true

theorem flagMarked_run {tree : Tree} (hplain : tree.IsPlain) (palette : Palette)
    {steps : List Step} (hsteps : ∀ s ∈ steps, s.IsPlain) (id : NodeId) :
    ((start tree palette).run steps).FlagMarked id := by
  refine run_induction (P := fun h => h.FlagMarked id) (fun _ _ hs h => h.step hs) hsteps ?_
  show tree.isMatching id = true → _
  rw [Tree.isMatching, hplain.shows matching_cleared]
  exact fun hfalse => absurd hfalse Bool.false_ne_true

/-! ### The cleared tree of a run -/

/-- What a step does to the tree when highlights are left aside: operations do nothing. -/
def Step.onTree (t : Tree) : Step → Tree
  | operate _ => t
  | add x => t.add x
  | renew tree => tree

theorem cleared_step (h : Highlights) {s : Step} (hplain : s.IsPlain) :
    (h.step s).tree.cleared = s.onTree h.tree.cleared := by
  cases s with
  | operate op => exact (op.run_changes h).cleared_eq
  | add x => exact h.tree.cleared_add hplain
  | renew tree => exact hplain.2.cleared_eq

/-- The cleared tree of a run is made by the additions and exchanges of trees in it alone. -/
theorem cleared_run {steps : List Step} (hsteps : ∀ s ∈ steps, s.IsPlain) (h : Highlights) :
    (h.run steps).tree.cleared = steps.foldl Step.onTree h.tree.cleared := by
  induction steps generalizing h with
  | nil => rfl
  | cons s steps ih =>
    have hs : s.IsPlain := hsteps s List.mem_cons_self
    rw [List.foldl_cons, ← cleared_step h hs]
    exact ih (fun x hx => hsteps x (List.mem_cons_of_mem _ hx)) (h.step s)

/-! ### Clearing all -/

/-- Clearing all gives the cleared tree, provided that whatever is displayed is in the set. -/
theorem tree_unmarkAll (hsound : ∀ id, h.Sound id) (hflag : ∀ id, h.FlagMarked id) :
    h.unmarkAll.tree = h.tree.cleared := by
  refine Tree.ext_of_cleared ?_ fun id => ?_
  · rw [Change.unmarkAll.changes.cleared_eq, Tree.cleared_cleared]
  · rw [token?_unmarkAll, Tree.token?_cleared]
    split
    · rfl
    · next hid =>
      -- A token outside the set is plain, so clearing it would not change it.
      cases ht : h.tree.token? id with
      | none => rfl
      | some tok =>
        have hcolor : tok.isHighlighted = false := by
          have hs := hsound id
          rw [Bool.not_eq_true] at hid
          rw [Sound, hid, Tree.isColored, Tree.shows, ht] at hs
          exact hs.symm
        have hmatching : tok.matching = false := by
          rw [← Bool.not_eq_true]
          intro hm
          exact hid (hflag id (by rw [Tree.isMatching, Tree.shows, ht]; exact hm))
        have hplain : tok.IsPlain := ⟨by simpa [Token.isHighlighted] using hcolor, hmatching⟩
        rw [Option.map_some, Token.isPlain_iff_cleared_eq.1 hplain]

/-- **Clearing all undoes whatever was displayed, in every state of every run.** Every flag is on a
token in the set, and clearing all leaves the set empty and the tree equal to the one that comes of
the additions of the run without its operations. -/
theorem clearAll_restores {tree : Tree} (hplain : tree.IsPlain) (palette : Palette)
    {steps : List Step} (hsteps : ∀ s ∈ steps, s.IsPlain) :
    let h := (start tree palette).run steps
    (∀ id tok, h.tree.token? id = some tok → tok.matching = true → h.isHighlighted id = true) ∧
    (Operation.clearAll.run h).1.marked = ∅ ∧
    (Operation.clearAll.run h).1.tree = steps.foldl Step.onTree tree := by
  intro h
  have hflag : ∀ id, h.FlagMarked id := flagMarked_run hplain palette hsteps
  refine ⟨fun id tok htok hm => hflag id ?_, rfl, ?_⟩
  · rw [Tree.isMatching, Tree.shows, htok]
    exact hm
  · calc h.unmarkAll.tree = h.tree.cleared :=
          tree_unmarkAll (sound_run hplain palette hsteps) hflag
      _ = steps.foldl Step.onTree tree.cleared := cleared_run hsteps _
      _ = steps.foldl Step.onTree tree := by rw [hplain.cleared_eq]

/-- A run that leaves a flag on a brace. Clearing all takes it away, and keeps what was added. -/
theorem clearAll_restores_sample :
    let h := (start Tree.sample .default).run (sampleSteps (.rgb 0 0 200))
    (h.tree.token? 12).any (·.matching) = true ∧ h.isHighlighted 12 = true ∧
      (Operation.clearAll.run h).1.tree =
        (Tree.sample.add (.token 2 (.plain { text := "," }))).add
          (.token 2 (.plain { text := "z", varnode := some 3 })) := by
  intro h
  obtain ⟨hflag, _, htree⟩ := clearAll_restores Tree.isPlain_sample .default
    (isPlain_sampleSteps (.rgb 0 0 200))
  have hmatching : (h.tree.token? 12).any (·.matching) = true := by decide +kernel
  obtain ⟨tok, htok, hm⟩ := (Option.any_eq_true _ _).1 hmatching
  exact ⟨hmatching, hflag 12 tok htok hm, htree.trans (by decide +kernel)⟩

end Highlights

end TokenHighlight
