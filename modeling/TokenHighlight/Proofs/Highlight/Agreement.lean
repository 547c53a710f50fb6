import TokenHighlight.Proofs.Highlight.Run
import TokenHighlight.Proofs.Tree.DocumentOrder

/-!
# The set and the colors agree

Which tokens are highlighted is kept twice, as a set and as colors. `Highlights.Sound` says of one
number that both give the same answer for it. Every change keeps every sound number sound, whatever
the others are, so nothing an operation does can introduce a disagreement; in a run that starts
plain, there is never one.

Questions about the set are then questions about the colors in the tree. Since document order lists
every token once, the size of the set is how many tokens one sees colored.

## Main definitions

* `Highlights.Sound` — set and color agree for a number

## Main results

* `Highlights.Change.sound` — changes keep numbers sound
* `Highlights.sound_run` — in a run every number is sound
* `Highlights.toList_marked_perm` — the set lists the colored tokens
* `Highlights.set_describes_colors` — all questions about the set, answered by the tree
-/

namespace TokenHighlight

namespace Highlights

variable {h a b : Highlights} {id : NodeId}

/-! ### Colors behind a change -/

theorem isColored_mark (h : Highlights) (id other : NodeId) (c : Color) :
    (h.mark id c).tree.isColored other =
      (h.tree.isColored other || (decide (id = other) && (h.tree.token? id).isSome)) := by
  rw [tree_mark]
  refine Tree.shows_modifyToken_of_true ?_ h.tree id other
  exact fun _ => rfl

theorem isColored_setMatching (h : Highlights) (id other : NodeId) :
    (h.setMatching id).tree.isColored other = h.tree.isColored other := by
  refine Tree.shows_modifyToken_of_eq ?_ h.tree id other
  exact fun _ => rfl

theorem isColored_unmark (h : Highlights) (id other : NodeId) :
    (h.unmark id).tree.isColored other = (decide (id ≠ other) && h.tree.isColored other) :=
  Tree.shows_modifyToken_of_false Token.isHighlighted_cleared h.tree id other

/-! ### Sound numbers -/

/-- The set has a number just if that number names a token with a color. -/
def Sound (h : Highlights) (id : NodeId) : Prop :=
  h.isHighlighted id = h.tree.isColored id

theorem Sound.mark (hs : h.Sound id) (other : NodeId) (c : Color) : (h.mark other c).Sound id := by
  rw [Sound, isHighlighted_mark, isColored_mark, hs]

theorem Change.sound (hc : Change a b) (hs : a.Sound id) : b.Sound id := by
  cases hc with
  | mark other c => exact hs.mark other c
  | unmark other =>
    rw [Sound, isHighlighted_unmark, isColored_unmark, hs]
  | unmarkAll =>
    rw [Sound, isHighlighted_unmarkAll, Tree.isColored, shows_unmarkAll Token.isHighlighted_cleared,
      hs, Tree.isColored, Bool.not_and_self]
  | pair other c _ =>
    refine Sound.mark (h := a.setMatching other) ?_ other c
    rw [Sound, isColored_setMatching]
    exact hs
  | recolor p => exact hs

theorem Changes.sound (hc : Changes a b) (hs : a.Sound id) : b.Sound id :=
  hc.preserves (P := fun h => h.Sound id) Change.sound hs

theorem Sound.add (hs : h.Sound id) {x : Tree.Addition} (hx : x.IsPlain) :
    (h.step (.add x)).Sound id := by
  show h.isHighlighted id = (h.tree.add x).isColored id
  rw [Tree.isColored, Tree.shows_add _ hx Token.isHighlighted_cleared]
  exact hs

/-- A plain step keeps what is sound. -/
theorem Sound.step (hs : h.Sound id) {s : Step} (hplain : s.IsPlain) : (h.step s).Sound id := by
  cases s with
  | operate op => exact (op.run_changes h).sound hs
  | add x => exact hs.add hplain
  | renew tree =>
    show h.unmarkAll.isHighlighted id = tree.isColored id
    rw [isHighlighted_unmarkAll, Tree.isColored, hplain.2.shows Token.isHighlighted_cleared]

theorem sound_start {tree : Tree} (hplain : tree.IsPlain) (palette : Palette) (id : NodeId) :
    (start tree palette).Sound id := by
  show (start tree palette).isHighlighted id = tree.isColored id
  rw [Tree.isColored, hplain.shows Token.isHighlighted_cleared]
  exact Std.ExtTreeSet.contains_empty

theorem sound_run {tree : Tree} (hplain : tree.IsPlain) (palette : Palette) {steps : List Step}
    (hsteps : ∀ s ∈ steps, s.IsPlain) (id : NodeId) : ((start tree palette).run steps).Sound id :=
  run_induction (P := fun h => h.Sound id) (fun _ _ hs h => h.step hs) hsteps
    (sound_start hplain palette id)

/-! ### What the set tells -/

theorem nodup_toList_marked (h : Highlights) : h.marked.toList.Nodup := by
  refine Std.ExtTreeSet.distinct_toList.imp fun hne heq => hne ?_
  rw [heq]
  exact Std.ReflCmp.compare_self

/-- The set, listed in order of numbers, has the colored tokens of the document. -/
theorem toList_marked_perm (hwf : h.tree.WellFormed) (hsound : ∀ id, h.Sound id) :
    h.marked.toList.Perm h.tree.coloredTokens := by
  refine (List.perm_ext_iff_of_nodup h.nodup_toList_marked (hwf.nodup_tokens.filter _)).2
    fun id => ?_
  rw [Std.ExtTreeSet.mem_toList, List.mem_filter, hwf.mem_tokens_iff,
    Std.ExtTreeSet.mem_iff_contains]
  have hs : h.marked.contains id = h.tree.isColored id := hsound id
  rw [hs, iff_and_self, Tree.isColored, Tree.shows]
  cases h.tree.token? id <;> simp

/-- The size of the set is how many tokens of the document have a color. -/
theorem count_eq_length (hwf : h.tree.WellFormed) (hsound : ∀ id, h.Sound id) :
    h.count = h.tree.coloredTokens.length := by
  rw [count, ← Std.ExtTreeSet.length_toList, (toList_marked_perm hwf hsound).length_eq]

theorem unique?_eq_some_iff : h.unique? = some id ↔ h.marked.toList = [id] := by
  rw [unique?]
  split
  · next x hx => simp [hx]
  · next hne =>
    constructor
    · intro hnone
      cases hnone
    · exact fun heq => absurd heq (hne id)

/-- **The set describes the colors, in every state of every run.** It has just the tokens with a
color; its size is how many of them the document has; and there is a unique highlighted token, with
a text to search for, just if one token of the document is colored and no other. -/
theorem set_describes_colors {tree : Tree} (htree : tree.Reachable) (hplain : tree.IsPlain)
    (palette : Palette) {steps : List Step} (hsteps : ∀ s ∈ steps, s.IsPlain) :
    let h := (start tree palette).run steps
    (∀ id, h.isHighlighted id = true ↔
      ∃ tok c, h.tree.token? id = some tok ∧ tok.highlight = some c) ∧
    h.count = h.tree.coloredTokens.length ∧
    (∀ id, h.unique? = some id ↔ h.tree.coloredTokens = [id]) ∧
    (∀ text, h.searchText? = some text ↔
      ∃ id tok, h.tree.coloredTokens = [id] ∧ h.tree.token? id = some tok ∧ tok.text = text) := by
  intro h
  have hsound : ∀ id, h.Sound id := sound_run hplain palette hsteps
  have hperm : h.marked.toList.Perm h.tree.coloredTokens :=
    toList_marked_perm (wellFormed_run htree palette hsteps) hsound
  have hunique : ∀ id, h.unique? = some id ↔ h.tree.coloredTokens = [id] := by
    intro id
    rw [unique?_eq_some_iff, ← List.perm_singleton, ← List.perm_singleton]
    exact ⟨fun hm => hperm.symm.trans hm, fun hm => hperm.trans hm⟩
  refine ⟨fun id => ?_, ?_, hunique, fun text => ?_⟩
  · rw [hsound id, Tree.isColored_iff]
  · rw [count, ← Std.ExtTreeSet.length_toList, hperm.length_eq]
  · rw [searchText?, Option.map_eq_some_iff]
    constructor
    · rintro ⟨tok, htok, rfl⟩
      obtain ⟨id, hid, htok⟩ := Option.bind_eq_some_iff.1 htok
      exact ⟨id, tok, (hunique id).1 hid, htok, rfl⟩
    · rintro ⟨id, tok, hid, htok, rfl⟩
      exact ⟨tok, Option.bind_eq_some_iff.2 ⟨id, (hunique id).2 hid, htok⟩, rfl⟩

/-- A run that takes another tree on its way and leaves one token of it colored. -/
theorem set_describes_colors_sample :
    let steps := .operate (.setHighlight 1 (.rgb 200 0 0)) :: .renew Tree.sample ::
      sampleSteps (.rgb 0 0 200)
    let h := (start (Tree.empty.add (.token 0 (.plain { text := "f" }))) .default).run steps
    h.isHighlighted 12 = true ∧ h.count = 1 ∧ h.unique? = some 12 ∧
      h.searchText? = some "\x7d" := by
  intro steps h
  have hsteps : ∀ s ∈ steps, s.IsPlain :=
    List.forall_mem_cons.2 ⟨trivial, List.forall_mem_cons.2
      ⟨⟨Tree.reachable_sample, Tree.isPlain_sample⟩, isPlain_sampleSteps _⟩⟩
  obtain ⟨hmem, hcount, hunique, htext⟩ := set_describes_colors
    (Tree.reachable_empty.edit (.add (.token 0 (.plain { text := "f" }))))
    (Tree.isPlain_empty.add (by decide)) .default hsteps
  have hcolored : h.tree.coloredTokens = [12] := by decide +kernel
  have hbrace : (h.tree.token? 12).map (·.text) = some "\x7d" := by decide +kernel
  obtain ⟨tok, htok, hbrace⟩ := Option.map_eq_some_iff.1 hbrace
  exact ⟨(hmem 12).2 (Tree.isColored_iff.1 (by decide +kernel)),
    hcount.trans (congrArg List.length hcolored), (hunique 12).2 hcolored,
    (htext _).2 ⟨12, tok, hcolored, htok, hbrace⟩⟩

end Highlights

end TokenHighlight
