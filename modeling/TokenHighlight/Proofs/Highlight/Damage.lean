import TokenHighlight.Proofs.Highlight.Agreement
import TokenHighlight.Proofs.Tree.Structure

/-!
# Damaged states

The set and the colors agree in every run that starts plain. They need not agree once somebody
paints tokens without telling the view, or puts another tree in its place and keeps the set: then
there are numbers in the set that name groups, or nothing, or a token without a color.

Such damage stays where it is. What an operation does about one number depends on nothing but that
number, so a number that is sound stays sound, whatever the others are; that is why `Change.sound`
has no hypothesis about them. Numbers that are not sound are made sound by clearing or highlighting
them, one by one. Clearing all repairs all numbers in the set, and cannot find the others.

## Main definitions

* `Highlights.Step.AddsNoColor` — no color enters with a step from outside

## Main results

* `Highlights.Sound.step_of_addsNoColor`, `Highlights.Sound.run_of_addsNoColor` — sound numbers stay
  sound
* `Highlights.isSome_token?_of_isHighlighted_step` — only tokens come into the set
* `Highlights.sound_unmarkAll_iff` — what clearing all repairs
* `Highlights.damage_stays` — the whole contract of damaged states
-/

namespace TokenHighlight

namespace Highlights

variable {h a b : Highlights} {id : NodeId} {s : Step}

/-- Whatever a step brings in from outside has no color. It may be flagged, and may have been made
in any way. -/
def Step.AddsNoColor : Step → Prop
  | operate _ => True
  | add x => ∀ tok, x.token? = some tok → tok.highlight = none
  | renew tree => ∀ id, tree.isColored id = false

/-! ### Sound numbers stay sound -/

theorem Sound.step_of_addsNoColor (hs : h.Sound id) (hcolor : s.AddsNoColor) :
    (h.step s).Sound id := by
  cases s with
  | operate op => exact (op.run_changes h).sound hs
  | add x =>
    have hx : ∀ tok, x.token? = some tok → tok.isHighlighted = false := fun tok htok => by
      rw [Token.isHighlighted, hcolor tok htok]
      rfl
    show h.isHighlighted id = (h.tree.add x).isColored id
    rw [Tree.isColored, Tree.shows_add_of_false _ hx]
    exact hs
  | renew tree =>
    show h.unmarkAll.isHighlighted id = tree.isColored id
    rw [isHighlighted_unmarkAll, hcolor id]

theorem Sound.run_of_addsNoColor {steps : List Step} (hs : h.Sound id)
    (hcolor : ∀ s ∈ steps, s.AddsNoColor) : (h.run steps).Sound id := by
  induction steps generalizing h with
  | nil => exact hs
  | cons s steps ih =>
    exact ih (hs.step_of_addsNoColor (hcolor s List.mem_cons_self))
      fun x hx => hcolor x (List.mem_cons_of_mem _ hx)

/-! ### Only tokens come into the set -/

theorem Change.isHighlighted_imp (hc : Change a b) (hb : b.isHighlighted id = true) :
    a.isHighlighted id = true ∨ (a.tree.token? id).isSome = true := by
  have hmark : ∀ (h : Highlights) (other : NodeId) (c : Color),
      (h.mark other c).isHighlighted id = true →
        h.isHighlighted id = true ∨ (h.tree.token? id).isSome = true := by
    intro h other c hin
    rw [isHighlighted_mark, Bool.or_eq_true, Bool.and_eq_true, decide_eq_true_iff] at hin
    exact hin.imp_right fun ⟨hid, htok⟩ => hid ▸ htok
  cases hc with
  | mark other c => exact hmark a other c hb
  | unmark other =>
    rw [isHighlighted_unmark, Bool.and_eq_true] at hb
    exact Or.inl hb.2
  | unmarkAll =>
    rw [isHighlighted_unmarkAll] at hb
    cases hb
  | pair other c _ =>
    refine (hmark (a.setMatching other) other c hb).imp_right fun htok => ?_
    exact (a.tree.isSome_token?_modifyToken other id _).symm.trans htok
  | recolor p => exact Or.inl hb

theorem Changes.isHighlighted_imp (hc : Changes a b) (hb : b.isHighlighted id = true) :
    a.isHighlighted id = true ∨ (a.tree.token? id).isSome = true := by
  induction hc with
  | refl => exact Or.inl hb
  | tail hchanges hstep ih =>
    rcases hstep.isHighlighted_imp hb with hmid | htok
    · exact ih hmid
    · have hcleared := Changes.cleared_eq hchanges
      exact Or.inr ((Tree.isSome_token?_of_cleared_eq hcleared id).symm.trans htok)

/-- **Only tokens come into the set.** -/
theorem isSome_token?_of_isHighlighted_step (hin : (h.step s).isHighlighted id = true) :
    h.isHighlighted id = true ∨ ((h.step s).tree.token? id).isSome = true := by
  cases s with
  | operate op =>
    have hchanges : Changes h (h.step (.operate op)) := op.run_changes h
    refine (hchanges.isHighlighted_imp hin).imp_right fun htok => ?_
    exact (Tree.isSome_token?_of_cleared_eq hchanges.cleared_eq id).trans htok
  | add x => exact Or.inl hin
  | renew tree => exact absurd (h.isHighlighted_unmarkAll id ▸ hin) Bool.false_ne_true

/-! ### Repairs -/

/-- Clearing a number makes it sound. -/
theorem sound_unmark (h : Highlights) (id : NodeId) : (h.unmark id).Sound id := by
  rw [Sound, isHighlighted_unmark, isColored_unmark, decide_eq_false (not_not_intro rfl),
    Bool.false_and, Bool.false_and]

/-- Highlighting a token makes it sound. -/
theorem sound_mark (htok : (h.tree.token? id).isSome = true) (c : Color) :
    (h.mark id c).Sound id := by
  rw [Sound, isHighlighted_mark, isColored_mark, decide_eq_true rfl, htok, Bool.and_true,
    Bool.or_true, Bool.or_true]

/-- **Clearing all repairs what the set names**, and every number but the tokens that have a color
and are not in the set. -/
theorem sound_unmarkAll_iff :
    h.unmarkAll.Sound id ↔ ¬(h.tree.isColored id = true ∧ h.isHighlighted id = false) := by
  rw [Sound, isHighlighted_unmarkAll, Tree.isColored, shows_unmarkAll Token.isHighlighted_cleared,
    ← Tree.isColored]
  cases h.isHighlighted id <;> cases h.tree.isColored id <;> decide

/-- **Damage stays where it is, in any state whatever.** No step makes a sound number unsound, and
none brings a number into the set that names no token; nor does any run of steps. A number is made
sound by clearing it, and by highlighting it if it names a token. Clearing all empties the set, and
leaves just those numbers unsound that name a token with a color which was not in the set; so it
repairs everything if the tree has no color. -/
theorem damage_stays (h : Highlights) :
    (∀ s : Step, s.AddsNoColor → ∀ id,
      (h.Sound id → (h.step s).Sound id) ∧
      ((h.step s).isHighlighted id = true →
        h.isHighlighted id = true ∨ ((h.step s).tree.token? id).isSome = true)) ∧
    (∀ steps : List Step, (∀ s ∈ steps, s.AddsNoColor) → ∀ id,
      h.Sound id → (h.run steps).Sound id) ∧
    (∀ id, ((Operation.clearHighlight id).run h).1.Sound id) ∧
    (∀ id c, (h.tree.token? id).isSome = true →
      ((Operation.setHighlight id c).run h).1.Sound id) ∧
    (Operation.clearAll.run h).1.marked = ∅ ∧
    (∀ id, ¬(Operation.clearAll.run h).1.Sound id ↔
      h.tree.isColored id = true ∧ h.isHighlighted id = false) ∧
    ((∀ id, h.tree.isColored id = false) → ∀ id, (Operation.clearAll.run h).1.Sound id) := by
  refine ⟨fun s hcolor id => ⟨fun hs => hs.step_of_addsNoColor hcolor, fun hin => ?_⟩,
    fun steps hcolor id hs => hs.run_of_addsNoColor hcolor, h.sound_unmark,
    fun id c htok => sound_mark htok c, rfl, fun id => ?_, fun hplain id => ?_⟩
  · exact isSome_token?_of_isHighlighted_step hin
  · exact (not_congr sound_unmarkAll_iff).trans not_not
  · refine sound_unmarkAll_iff.2 fun ⟨hcolor, _⟩ => ?_
    rw [hplain id] at hcolor
    cases hcolor

/-- A set from another tree, with a group, a token without color and nothing in it, and a token that
was painted. Selecting a token leaves what was sound as it is, and clearing all finds everything but
the token that was painted. -/
theorem damage_stays_sample :
    let painted :=
      Tree.sample.modifyToken 1 fun tok => { tok with highlight := some (.rgb 200 0 0) }
    let h : Highlights := ⟨painted, Std.ExtTreeSet.ofList [2, 4, 99] compare, .default⟩
    ¬h.Sound 1 ∧ ¬h.Sound 2 ∧ h.Sound 9 ∧ (h.step (.operate (.select 9 .byText))).Sound 9 ∧
      ¬(Operation.clearAll.run h).1.Sound 1 ∧ (Operation.clearAll.run h).1.Sound 2 ∧
      (Operation.clearAll.run h).1.Sound 99 := by
  intro painted h
  obtain ⟨hstep, _, _, _, _, hclear, _⟩ := damage_stays h
  have hsound : h.Sound 9 := by
    unfold Sound
    decide +kernel
  have hpainted : h.tree.isColored 1 = true ∧ h.isHighlighted 1 = false := by decide +kernel
  refine ⟨?_, ?_, hsound, (hstep (.operate _) trivial 9).1 hsound, (hclear 1).2 hpainted, ?_, ?_⟩
  · unfold Sound
    decide +kernel
  · unfold Sound
    decide +kernel
  · exact not_not.1 fun hne => absurd ((hclear 2).1 hne) (by decide +kernel)
  · exact not_not.1 fun hne => absurd ((hclear 99).1 hne) (by decide +kernel)

end Highlights

end TokenHighlight
