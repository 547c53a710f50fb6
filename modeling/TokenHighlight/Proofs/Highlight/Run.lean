import TokenHighlight.Proofs.Highlight.Change
import TokenHighlight.Proofs.Tree.Display
import TokenHighlight.Proofs.Tree.WellFormed

/-!
# Runs

A view lives through operations on its highlights, mixed with additions to its tree. Now and then it
gets another tree, right after everything was cleared. A run is a list of such steps, from a tree of
which nothing is highlighted.

Trees and tokens that enter a run from outside are plain: they carry no color and no flag. Without
that, no agreement between colors and the set of highlighted nodes could be hoped for, since the set
is kept by the view alone.

## Main definitions

* `Highlights.Step`, `Highlights.step`, `Highlights.run` — steps and runs
* `Highlights.Step.IsPlain` — what enters the run is plain

## Main results

* `Highlights.run_induction` — what every step keeps is kept by a run
* `Highlights.wellFormed_run` — the tree stays well formed
-/

namespace TokenHighlight

namespace Highlights

/-! ### Steps -/

/-- One step in the life of a view. -/
inductive Step
  | operate (op : Operation)
  | add (a : Tree.Addition)
  /-- Clears everything, and takes another tree. -/
  | renew (tree : Tree)

/-- The highlights behind a step. -/
def step (h : Highlights) : Step → Highlights
  | .operate op => (op.run h).1
  | .add a => { h with tree := h.tree.add a }
  | .renew tree => { (Operation.clearAll.run h).1 with tree }

/-- The highlights behind a list of steps. -/
def run (h : Highlights) (steps : List Step) : Highlights :=
  steps.foldl step h

/-- What enters the run with this step is plain; a tree that does was made as all trees are. -/
def Step.IsPlain : Step → Prop
  | operate _ => True
  | add a => a.IsPlain
  | renew tree => tree.Reachable ∧ tree.IsPlain

/-- **Induction over runs.** What every plain step keeps, a run of plain steps keeps. -/
theorem run_induction {P : Highlights → Prop} (hstep : ∀ h s, s.IsPlain → P h → P (h.step s))
    {steps : List Step} (hsteps : ∀ s ∈ steps, s.IsPlain) {h : Highlights} (hP : P h) :
    P (h.run steps) := by
  induction steps generalizing h with
  | nil => exact hP
  | cons s steps ih =>
    exact ih (fun x hx => hsteps x (List.mem_cons_of_mem _ hx))
      (hstep h s (hsteps s List.mem_cons_self) hP)

theorem Changes.wellFormed {a b : Highlights} (hc : Changes a b) (ha : a.tree.WellFormed) :
    b.tree.WellFormed :=
  hc.preserves (P := fun h => h.tree.WellFormed)
    (fun hc ha => hc.tree_induction (fun _ id f _ ht => ht.modifyToken id f) ha) ha

/-- The tree of a view stays well formed, whatever is done to its highlights. -/
theorem wellFormed_run {tree : Tree} (htree : tree.Reachable) (palette : Palette)
    {steps : List Step} (hsteps : ∀ s ∈ steps, s.IsPlain) :
    ((start tree palette).run steps).tree.WellFormed := by
  refine run_induction (P := fun h => h.tree.WellFormed) (fun h s hs hP => ?_) hsteps
    htree.wellFormed
  cases s with
  | operate op => exact (op.run_changes h).wellFormed hP
  | add a => exact hP.add a
  | renew tree => exact hs.1.wellFormed

/-! ### A run -/

/-- Steps that add to the document, color a variable and a bracket and the gap between them, flag a
brace, and take all colors back but that of the brace. Numbers of groups and of nothing are among
those that they are given. -/
def sampleSteps (c : Color) : List Step :=
  [.add (.token 2 (.plain { text := "," })),
    .add (.token 2 (.plain { text := "z", varnode := some 3 })),
    .add (.token 4 (.plain { text := "nowhere" })),
    .operate (.addTokens [4, 14, 2, 99] c),
    .operate .fill,
    .operate (.highlightBrace 7 c .byText),
    .operate (.clearHighlight 6),
    .operate (.clearHighlight 4),
    .operate (.clearHighlight 13),
    .operate (.clearHighlight 14)]

theorem isPlain_sampleSteps (c : Color) : ∀ s ∈ sampleSteps c, s.IsPlain := by
  have hplain : ∀ parent data, (Tree.Addition.token parent (.plain data)).IsPlain := by
    rintro parent data tok ⟨⟩
    exact ⟨rfl, rfl⟩
  simp [sampleSteps, Step.IsPlain, hplain]

end Highlights

end TokenHighlight
