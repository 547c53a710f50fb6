import TokenHighlight.Proofs.Highlight.Clearing
import TokenHighlight.Proofs.Highlight.Range
import TokenHighlight.Proofs.Tree.Structure

/-!
# Selecting a token

A selection shows up to three things: the token itself, the range of its bracket and the partner of
its brace. They may overlap, and where they do the color for brackets wins, because the token is
marked first. The flag goes to the partner and to nothing else.

Whatever was displayed before is gone. All highlights are cleared first, and in a run that leaves
the cleared tree with an empty set, so that a selection is always one in a view that has just been
started. Two runs that lead to the same document and the same palette therefore agree behind a
selection, whatever they did before; and a second selection of the same token finds what the first
one found.

The range and the partner are looked for in a tree that shows a part of the selection already. For
the range that makes no difference; for the partner it makes none if the lookup is structural.

## Main definitions

* `Tree.InRange` — a node lies in the range of a bracket, by its place in the document
* `BraceLookup.IsPartner` — a token is the partner of a brace

## Main results

* `Highlights.unmarkAll_eq_start` — clearing all starts anew
* `Highlights.token?_select`, `Highlights.isHighlighted_select` — what a selection shows
* `Highlights.select_congr` — what it depends on
* `Highlights.select_replaces` — the whole contract of a selection
-/

namespace TokenHighlight

/-! ### Ranges and partners -/

namespace Tree

variable {t : Tree} {id x : NodeId}

/-- A node lies in the range of a bracket: the first one carries an end of a pair, and the second
one stands, in document order, between an opening end of that pair and the next closing one, or is
one of them. -/
def InRange (t : Tree) (id x : NodeId) : Prop :=
  ∃ b i j k, t.bracket? id = some b ∧ t.IsInterval b.pair t.tokens i j ∧ i ≤ k ∧ k ≤ j ∧
    t.tokens[k]? = some x

theorem WellFormed.mem_bracketRange_iff_inRange (h : t.WellFormed) :
    x ∈ t.bracketRange id ↔ t.InRange id x := by
  constructor
  · intro hx
    cases hb : t.bracket? id with
    | none =>
      rw [bracketRange, hb] at hx
      cases hx
    | some b =>
      obtain ⟨i, j, k, hinterval⟩ :=
        exists_span_iff.1 (mem_spansBelow_iff.1 ((h.mem_bracketRange_iff hb).1 hx))
      exact ⟨b, i, j, k, hb, hinterval⟩
  · rintro ⟨b, i, j, k, hb, hinterval⟩
    exact (h.mem_bracketRange_iff hb).2
      (mem_spansBelow_iff.2 (exists_span_iff.2 ⟨i, j, k, hinterval⟩))

/-- What lies in a range is a token. -/
theorem WellFormed.isSome_token?_of_inRange (h : t.WellFormed) (hx : t.InRange id x) :
    (t.token? x).isSome = true := by
  obtain ⟨_, _, _, _, _, _, _, _, hk⟩ := hx
  exact h.mem_tokens_iff.1 (List.mem_of_getElem? hk)

end Tree

/-- A token is the partner of a brace, as a lookup has it. -/
def BraceLookup.IsPartner (lookup : BraceLookup) (t : Tree) (id x : NodeId) : Prop :=
  lookup.isBrace t id = true ∧ lookup.partner? t id = some x ∧ (t.token? x).isSome = true

namespace Highlights

variable {h a b : Highlights} {lookup : BraceLookup} {id x : NodeId}

theorem bracePartner?_eq_some_iff :
    h.bracePartner? lookup id = some x ↔ lookup.IsPartner h.tree id x := by
  rw [bracePartner?, BraceLookup.IsPartner]
  split
  · next hbrace => simp [hbrace, Option.filter_eq_some_iff]
  · next hbrace => simp [hbrace]

/-- A structural lookup names the same partners in trees that differ only in what is displayed. -/
theorem bracePartner?_congr (hlookup : lookup.IsStructural)
    (hab : a.tree.cleared = b.tree.cleared) (id : NodeId) :
    a.bracePartner? lookup id = b.bracePartner? lookup id := by
  have htoken : ∀ x, (a.tree.token? x).isSome = (b.tree.token? x).isSome :=
    Tree.isSome_token?_of_cleared_eq hab
  obtain ⟨hbrace, hpartner⟩ := hlookup _ _ hab id
  simp only [bracePartner?, hbrace, hpartner, htoken]

/-! ### Marking a partner -/

theorem token?_highlightBrace (h : Highlights) (lookup : BraceLookup) (id x : NodeId) (c : Color) :
    (h.highlightBrace lookup id c).1.tree.token? x =
      if h.bracePartner? lookup id = some x then
        (h.tree.token? x).map fun tok => { tok with highlight := some c, matching := true }
      else h.tree.token? x := by
  rw [highlightBrace]
  cases hu : h.bracePartner? lookup id with
  | none => rfl
  | some partner =>
    show ((h.setMatching partner).mark partner c).tree.token? x = _
    rw [token?_mark, setMatching, Tree.token?_modifyToken]
    by_cases hx : partner = x
    · simp [hx, Function.comp_def]
    · simp [hx]

theorem isHighlighted_highlightBrace (h : Highlights) (lookup : BraceLookup) (id x : NodeId)
    (c : Color) :
    (h.highlightBrace lookup id c).1.isHighlighted x =
      (h.isHighlighted x || decide (h.bracePartner? lookup id = some x)) := by
  rw [highlightBrace]
  cases hu : h.bracePartner? lookup id with
  | none => simp
  | some partner =>
    have htoken : ((h.setMatching partner).tree.token? partner).isSome = true :=
      (h.tree.isSome_token?_modifyToken partner partner _).trans
        (bracePartner?_eq_some_iff.1 hu).2.2
    show ((h.setMatching partner).mark partner c).isHighlighted x = _
    rw [isHighlighted_mark, htoken, Bool.and_true]
    simp [isHighlighted, setMatching]

theorem palette_highlightBrace (h : Highlights) (lookup : BraceLookup) (id : NodeId) (c : Color) :
    (h.highlightBrace lookup id c).1.palette = h.palette := by
  rw [highlightBrace]
  split
  · exact palette_mark _ _ _
  · rfl

/-! ### Selections -/

/-- Clearing all starts anew, provided that it gives the cleared tree. -/
theorem unmarkAll_eq_start (hclear : h.unmarkAll.tree = h.tree.cleared) :
    h.unmarkAll = start h.tree.cleared h.palette := by
  rw [start, ← hclear]
  rfl

/-- **What a selection depends on.** The document and the palette; nothing of what was displayed. -/
theorem select_congr (ha : a.unmarkAll.tree = a.tree.cleared)
    (hb : b.unmarkAll.tree = b.tree.cleared) (htree : a.tree.cleared = b.tree.cleared)
    (hpalette : a.palette = b.palette) (lookup : BraceLookup) (id : NodeId) :
    a.select lookup id = b.select lookup id := by
  have hstart : a.unmarkAll = b.unmarkAll := by
    rw [unmarkAll_eq_start ha, unmarkAll_eq_start hb, htree, hpalette]
  simp only [select, hstart, hpalette]

@[simp] theorem palette_select (h : Highlights) (lookup : BraceLookup) (id : NodeId) :
    (h.select lookup id).palette = h.palette := by
  rw [select, palette_highlightBrace]
  exact (palette_markAll _ _ _).trans (palette_mark _ _ _)

theorem cleared_select (h : Highlights) (lookup : BraceLookup) (id : NodeId) :
    (h.select lookup id).tree.cleared = h.tree.cleared :=
  (changes_select h lookup id).cleared_eq

/-! ### What a selection shows -/

/-- The token and the range of its bracket, which are marked before the partner. -/
def markRange (h : Highlights) (id : NodeId) : Highlights :=
  (h.unmarkAll.mark id h.palette.highlight).markAll (h.tree.bracketRange id) h.palette.paren

theorem cleared_markRange (h : Highlights) (id : NodeId) :
    (h.markRange id).tree.cleared = h.tree.cleared := by
  have hmark : Changes h (h.unmarkAll.mark id h.palette.highlight) :=
    Change.unmarkAll.changes.trans (Change.mark id _).changes
  exact (hmark.trans (changes_markAll _ _ _)).cleared_eq

/-- The range is the one in the tree as it was, since a mark on the token moves no bracket. -/
theorem select_eq_highlightBrace (h : Highlights) (lookup : BraceLookup) (id : NodeId) :
    h.select lookup id = ((h.markRange id).highlightBrace lookup id h.palette.paren).1 := by
  have hmark : (h.unmarkAll.mark id h.palette.highlight).tree.cleared = h.tree.cleared :=
    (Change.unmarkAll.changes.trans (Change.mark id _).changes).cleared_eq
  have hrange : (h.unmarkAll.mark id h.palette.highlight).tree.bracketRange = h.tree.bracketRange :=
    Tree.congr_of_cleared Tree.bracketRange (fun t => funext t.bracketRange_cleared) hmark
  have hpalette : (h.unmarkAll.mark id h.palette.highlight).palette = h.palette :=
    palette_mark _ _ _
  simp only [select, markRange, highlightBracket, palette_markAll, hpalette, hrange]

/-- The partner is the one in the tree as it was, if the lookup is structural. -/
theorem bracePartner?_markRange (hlookup : lookup.IsStructural) (h : Highlights) (id : NodeId) :
    (h.markRange id).bracePartner? lookup id = h.bracePartner? lookup id :=
  bracePartner?_congr hlookup (h.cleared_markRange id) id

/-- The color that a selection gives to a token, if it gives one. The range of the bracket and the
partner of the brace come last, and so their color wins. -/
def selectionColor? (h : Highlights) (lookup : BraceLookup) (id x : NodeId) : Option Color :=
  if x ∈ h.tree.bracketRange id ∨ h.bracePartner? lookup id = some x then some h.palette.paren
  else if x = id then some h.palette.highlight else none

/-- **What a selection shows of a token.** -/
theorem token?_select (hclear : h.unmarkAll.tree = h.tree.cleared) (hlookup : lookup.IsStructural)
    (id x : NodeId) :
    (h.select lookup id).tree.token? x = (h.tree.token? x).map fun tok =>
      { tok with
        highlight := h.selectionColor? lookup id x
        matching := decide (h.bracePartner? lookup id = some x) } := by
  have hrange : (h.markRange id).tree.token? x = (h.tree.token? x).map fun tok =>
      { tok with
        highlight :=
          if x ∈ h.tree.bracketRange id then some h.palette.paren
          else if x = id then some h.palette.highlight else none
        matching := false } := by
    rw [markRange, token?_markAll, token?_mark, hclear, Tree.token?_cleared]
    by_cases hx : x = id
    · subst hx
      split <;> simp [Function.comp_def, Token.cleared]
    · rw [if_neg (Ne.symm hx), if_neg hx]
      split
      · exact Option.map_map _ _ _
      · rfl
  rw [select_eq_highlightBrace, token?_highlightBrace, bracePartner?_markRange hlookup, hrange]
  by_cases hu : h.bracePartner? lookup id = some x
  · simp [hu, selectionColor?, Function.comp_def]
  · simp [hu, selectionColor?]

/-- What a selection leaves in the set: what it marks, as far as these are tokens. -/
theorem isHighlighted_select (hlookup : lookup.IsStructural) (h : Highlights) (id x : NodeId) :
    (h.select lookup id).isHighlighted x = true ↔
      (x = id ∨ x ∈ h.tree.bracketRange id ∨ h.bracePartner? lookup id = some x) ∧
        (h.tree.token? x).isSome = true := by
  have htoken : ∀ {g}, Changes h g → (g.tree.token? x).isSome = (h.tree.token? x).isSome :=
    fun hg => Tree.isSome_token?_of_cleared_eq hg.cleared_eq x
  have hunmark : Changes h h.unmarkAll := Change.unmarkAll.changes
  rw [select_eq_highlightBrace, isHighlighted_highlightBrace, bracePartner?_markRange hlookup,
    markRange, isHighlighted_markAll, htoken (hunmark.trans (Change.mark id _).changes),
    isHighlighted_mark, isHighlighted_unmarkAll]
  have hpartner : h.bracePartner? lookup id = some x → (h.tree.token? x).isSome = true :=
    fun hu => (bracePartner?_eq_some_iff.1 hu).2.2
  by_cases hx : x = id
  · subst hx
    rw [htoken hunmark]
    simp only [Bool.or_eq_true, Bool.and_eq_true, decide_eq_true_iff, true_or, true_and]
    tauto
  · simp only [Ne.symm hx, hx, decide_false, Bool.false_and, Bool.or_eq_true, Bool.and_eq_true,
      decide_eq_true_iff, Bool.or_false, false_or]
    tauto

/-! ### Selections in a run -/

/-- **A selection replaces all that was displayed, in every state of every run.** In the set are the
token, the range of its bracket and the partner of its brace. The range and the partner have the
color for brackets, the token has the highlight color unless it is one of them, and no other token
has a color; the partner alone is flagged. Nothing else of the tree changes. Whatever another run
did, if it comes to the same document and palette it agrees behind the selection; and selecting the
token again changes nothing. -/
theorem select_replaces {tree : Tree} (htree : tree.Reachable) (hplain : tree.IsPlain)
    (palette : Palette) {steps : List Step} (hsteps : ∀ s ∈ steps, s.IsPlain)
    (hlookup : lookup.IsStructural) (id : NodeId) :
    let h := (start tree palette).run steps
    let g := h.select lookup id
    (∀ x, g.isHighlighted x = true ↔
      (x = id ∧ (h.tree.token? id).isSome = true) ∨ h.tree.InRange id x ∨
        lookup.IsPartner h.tree id x) ∧
    (∀ x tok, g.tree.token? x = some tok →
      (h.tree.InRange id x ∨ lookup.IsPartner h.tree id x →
        tok.highlight = some h.palette.paren) ∧
      (¬h.tree.InRange id x → ¬lookup.IsPartner h.tree id x →
        tok.highlight = if x = id then some h.palette.highlight else none) ∧
      (tok.matching = true ↔ lookup.IsPartner h.tree id x)) ∧
    g.tree.cleared = h.tree.cleared ∧ g.palette = h.palette ∧
    (∀ {tree' : Tree} {palette' : Palette} {steps' : List Step}, tree'.IsPlain →
      (∀ s ∈ steps', s.IsPlain) →
      let h' := (start tree' palette').run steps'
      h'.tree.cleared = h.tree.cleared → h'.palette = h.palette → h'.select lookup id = g) ∧
    g.select lookup id = g := by
  have hclear : ∀ {tree : Tree} {palette : Palette} {steps : List Step}, tree.IsPlain →
      (∀ s ∈ steps, s.IsPlain) →
      let h := (start tree palette).run steps
      h.unmarkAll.tree = h.tree.cleared := fun hplain hsteps =>
    tree_unmarkAll (sound_run hplain _ hsteps) (flagMarked_run hplain _ hsteps)
  intro h g
  have hh : h.unmarkAll.tree = h.tree.cleared := hclear hplain hsteps
  have hwf : h.tree.WellFormed := wellFormed_run htree palette hsteps
  have hrange : ∀ x, x ∈ h.tree.bracketRange id ↔ h.tree.InRange id x := fun _ =>
    hwf.mem_bracketRange_iff_inRange
  refine ⟨fun x => ?_, fun x tok htok => ?_, cleared_select h lookup id, palette_select h lookup id,
    fun hplain' hsteps' htree' hpalette' => ?_, ?_⟩
  · rw [isHighlighted_select hlookup, hrange, bracePartner?_eq_some_iff]
    constructor
    · rintro ⟨rfl | hx, htoken⟩
      · exact Or.inl ⟨rfl, htoken⟩
      · exact Or.inr hx
    · rintro (⟨rfl, htoken⟩ | hx | hx)
      · exact ⟨Or.inl rfl, htoken⟩
      · exact ⟨Or.inr (Or.inl hx), hwf.isSome_token?_of_inRange hx⟩
      · exact ⟨Or.inr (Or.inr hx), hx.2.2⟩
  · rw [token?_select hh hlookup, Option.map_eq_some_iff] at htok
    obtain ⟨tok, _, rfl⟩ := htok
    have hin : x ∈ h.tree.bracketRange id ∨ h.bracePartner? lookup id = some x ↔
        h.tree.InRange id x ∨ lookup.IsPartner h.tree id x :=
      or_congr (hrange x) bracePartner?_eq_some_iff
    exact ⟨fun hx => if_pos (hin.2 hx), fun hr hu => if_neg (mt hin.1 (not_or.2 ⟨hr, hu⟩)),
      decide_eq_true_iff.trans bracePartner?_eq_some_iff⟩
  · exact select_congr (hclear hplain' hsteps') hh htree' hpalette' lookup id
  · -- Selecting is a step of the run, so what holds behind runs holds behind the selection.
    have hg : g.unmarkAll.tree = g.tree.cleared := by
      have hchanges : Changes h g := changes_select h lookup id
      refine tree_unmarkAll (fun x => ?_) fun x => ?_
      · exact hchanges.sound (sound_run hplain _ hsteps x)
      · exact hchanges.preserves (P := fun h => h.FlagMarked x) Change.flagMarked
          (flagMarked_run hplain _ hsteps x)
    exact select_congr hg hh (cleared_select h lookup id) (palette_select h lookup id) lookup id

/-- A run that leaves the closing brace colored and flagged. Selecting a bracket of the second call
colors the variable of the first. Selecting the opening brace comes to what it would come to in the
same document without the run. -/
theorem select_replaces_sample :
    let h := (start Tree.sample .default).run (sampleSteps (.rgb 0 0 200))
    let document := (Tree.sample.add (.token 2 (.plain { text := "," }))).add
      (.token 2 (.plain { text := "z", varnode := some 3 }))
    (h.select .byText 9).isHighlighted 4 = true ∧
    (h.select .byText 7).isHighlighted 12 = true ∧
    (start document .default).select .byText 7 = h.select .byText 7 ∧
    (h.select .byText 7).select .byText 7 = h.select .byText 7 := by
  intro h document
  have hselect : ∀ id, _ := fun id => select_replaces Tree.reachable_sample Tree.isPlain_sample
    .default (isPlain_sampleSteps (.rgb 0 0 200)) BraceLookup.isStructural_byText id
  obtain ⟨hbracket, _⟩ := hselect 9
  obtain ⟨hbrace, _, _, _, hruns, hagain⟩ := hselect 7
  have hinterval : h.tree.IsInterval 7 h.tree.tokens 1 5 := by
    refine ⟨by decide, by decide +kernel, by decide +kernel, fun k hik hkj => ?_⟩
    obtain rfl | rfl | rfl : k = 2 ∨ k = 3 ∨ k = 4 := by omega
    all_goals decide +kernel
  have hrange : h.tree.InRange 9 4 :=
    ⟨.opening 7, 1, 5, 2, by decide +kernel, hinterval, by decide, by decide, by decide +kernel⟩
  have hpartner : BraceLookup.byText.IsPartner h.tree 7 12 :=
    ⟨by decide +kernel, by decide +kernel, by decide +kernel⟩
  have hdocument : document.IsPlain := by decide +kernel
  exact ⟨(hbracket 4).2 (Or.inr (Or.inl hrange)), (hbrace 12).2 (Or.inr (Or.inr hpartner)),
    @hruns document .default [] hdocument (List.forall_mem_nil _) (by decide +kernel)
      (by decide +kernel),
    hagain⟩

end Highlights

end TokenHighlight
