import TokenHighlight.Proofs.Highlight.Filling

/-!
# What a fill adds

`Filling` says which tokens lie in a gap, and that filling gives each of them the color of its gap.
Here this becomes a statement about the state in front of a fill and the one behind it: which colors
are new, that nothing else is, what the set gains, and that the number that is returned counts it.

The count is kept by the loop, one for each mark. It is compared with the size of the set, which
grows with the same marks: a token without color is not in the set as long as both agree, so every
mark that is counted brings a new number into the set.

The scan of `Tree.gapsFrom` collects the tokens behind the last color while it goes. With positions
instead, it remembers only where that color was, and cuts the gap out of the list once it comes to
the next one. That cut could miss the list. `Tree.gapsByPosition` is the scan that gives up then,
and it never does.

## Main definitions

* `Highlights.Consistent` — a state in which set and colors agree
* `Tree.newlyColored` — the tokens with a color in one tree and none in another
* `Tree.gapsByPosition` — the scan with positions

## Main results

* `Highlights.consistent_run` — every state of a run is consistent
* `Highlights.count_fill` — what is counted comes into the set
* `Tree.gapsByPosition_eq_some` — positions never miss the list
* `Highlights.fill_colors_gaps` — the whole contract of filling
-/

namespace TokenHighlight

/-! ### The scan with positions -/

/-- The part of a list between two positions, without the second. There is none if the first lies
behind the second, or the second behind the end. -/
def slice? (ids : List NodeId) (start stop : Nat) : Option (List NodeId) :=
  if start ≤ stop ∧ stop ≤ ids.length then some ((ids.take stop).drop start) else none

theorem slice?_append {done rest : List NodeId} {start : Nat} (h : start ≤ done.length) :
    slice? (done ++ rest) start done.length = some (done.drop start) := by
  rw [slice?, if_pos ⟨h, by simp⟩, List.take_left]

namespace Tree

variable {t : Tree}

/-- The scan for gaps with positions. `run` holds the position and the color of the last highlighted
sibling, and is missing where no gap can have begun; `index` is the position of the next one. It
comes to nothing if a gap is cut out of the list where the list is not. -/
def gapsByPosition (t : Tree) (siblings : List NodeId) : Option (Nat × Color) → Nat →
    List NodeId → Option (List (NodeId × Color))
  | _, _, [] => some []
  | run, index, id :: rest =>
    match t.token? id with
    | none => t.gapsByPosition siblings none (index + 1) rest
    | some tok =>
      match tok.highlight, tok.address with
      | some c, _ => do
        let found ← match run with
          | some (start, before) =>
            (slice? siblings (start + 1) index).map fun gap => gap.map fun id => (id, before)
          | none => some []
        let further ← t.gapsByPosition siblings (some (index, c)) (index + 1) rest
        return found ++ further
      | none, some _ => t.gapsByPosition siblings none (index + 1) rest
      | none, none => t.gapsByPosition siblings run (index + 1) rest

/-- The two ways to remember a run: where its color was among the siblings so far, or the siblings
since then in reverse. -/
def SameRun (done : List NodeId) : Option (Nat × Color) → Option (Color × List NodeId) → Prop
  | none, none => True
  | some (start, c), some (c', seen) =>
    c = c' ∧ start < done.length ∧ seen.reverse = done.drop (start + 1)
  | _, _ => False

theorem SameRun.next {done : List NodeId} {byPosition : Option (Nat × Color)}
    {run : Option (Color × List NodeId)} (h : SameRun done byPosition run) (id : NodeId) :
    SameRun (done ++ [id]) byPosition (run.map fun (before, seen) => (before, id :: seen)) := by
  rcases byPosition with _ | ⟨start, c⟩ <;> rcases run with _ | ⟨c', seen⟩
  · trivial
  · exact h.elim
  · exact h.elim
  · obtain ⟨rfl, hlt, hseen⟩ := h
    refine ⟨rfl, ?_, ?_⟩
    · rw [List.length_append]
      omega
    · rw [List.reverse_cons, hseen, List.drop_append_of_le_length (by omega)]

/-- **Positions never miss the list**, and the scan with positions finds what the other finds. -/
theorem gapsByPosition_eq_some {done rest : List NodeId} {byPosition : Option (Nat × Color)}
    {run : Option (Color × List NodeId)} (h : SameRun done byPosition run) :
    t.gapsByPosition (done ++ rest) byPosition done.length rest = some (t.gapsFrom run rest) := by
  induction rest generalizing done byPosition run with
  | nil => rfl
  | cons id rest ih =>
    have hnext : ∀ {byPosition run}, SameRun (done ++ [id]) byPosition run →
        t.gapsByPosition (done ++ id :: rest) byPosition (done.length + 1) rest =
          some (t.gapsFrom run rest) := by
      intro byPosition run hrun
      have hih := ih hrun
      rw [List.append_assoc, List.length_append] at hih
      exact hih
    have hnone : SameRun (done ++ [id]) none none := trivial
    rw [gapsByPosition, gapsFrom.eq_def]
    cases htok : t.token? id with
    | none =>
      simp only [htok]
      exact hnext hnone
    | some tok =>
      cases hcolor : tok.highlight with
      | none =>
        cases haddress : tok.address with
        | some address =>
          simp only [htok, hcolor, haddress]
          exact hnext hnone
        | none =>
          simp only [htok, hcolor, haddress]
          exact hnext (h.next id)
      | some c =>
        have hcolored : SameRun (done ++ [id]) (some (done.length, c)) (some (c, [])) := by
          refine ⟨rfl, ?_, ?_⟩
          · rw [List.length_append, List.length_singleton]
            omega
          · simp
        simp only [htok, hcolor, hnext hcolored]
        rcases byPosition with _ | ⟨start, before⟩ <;> rcases run with _ | ⟨before', seen⟩
        · rfl
        · exact h.elim
        · exact h.elim
        · obtain ⟨rfl, hlt, hseen⟩ := h
          simp only [slice?_append (Nat.succ_le_of_lt hlt), hseen]
          rfl

/-- The scan of a whole list. -/
theorem gapsByPosition_siblings (t : Tree) (siblings : List NodeId) :
    t.gapsByPosition siblings none 0 siblings = some (t.gapsFrom none siblings) := by
  have hbegin : SameRun [] none none := trivial
  have hscan : t.gapsByPosition ([] ++ siblings) none ([] : List NodeId).length siblings =
      some (t.gapsFrom none siblings) := gapsByPosition_eq_some hbegin
  exact hscan

/-! ### New colors -/

/-- The tokens of a tree that have a color in another tree and none in this one, in document order.
They are listed for trees that differ only in what is displayed. -/
def newlyColored (t t' : Tree) : List NodeId :=
  t.tokens.filter fun x => !t.isColored x && t'.isColored x

end Tree

namespace Highlights

variable {h : Highlights} {state : Highlights × Nat} {x : NodeId} {c : Color}

/-! ### Consistent states -/

/-- Parents and children of the tree fit together, and the set has just the tokens with a color. -/
structure Consistent (h : Highlights) : Prop where
  wellFormed : h.tree.WellFormed
  sound : ∀ id, h.Sound id

/-- Every state of every run is consistent. -/
theorem consistent_run {tree : Tree} (htree : tree.Reachable) (hplain : tree.IsPlain)
    (palette : Palette) {steps : List Step} (hsteps : ∀ s ∈ steps, s.IsPlain) :
    ((start tree palette).run steps).Consistent :=
  ⟨wellFormed_run htree palette hsteps, sound_run hplain palette hsteps⟩

theorem Changes.consistent {g : Highlights} (hc : Changes h g) (hh : h.Consistent) :
    g.Consistent :=
  ⟨hc.wellFormed hh.wellFormed, fun id => hc.sound (hh.sound id)⟩

/-- The size of the set is how many tokens of the document have a color. -/
theorem Consistent.count_eq (hh : h.Consistent) : h.count = h.tree.coloredTokens.length :=
  count_eq_length hh.wellFormed hh.sound

/-! ### What is counted -/

theorem sound_fillOne (hsound : ∀ id, state.1.Sound id) (gap : NodeId × Color) (id : NodeId) :
    (fillOne state gap).1.Sound id := by
  rw [fillOne]
  split
  · split
    · exact hsound id
    · exact (hsound id).mark gap.1 gap.2
  · exact hsound id

/-- A mark on a token without color brings one number into the set. -/
theorem count_mark {tok : Token} (hx : h.Sound x) (htok : h.tree.token? x = some tok)
    (hcolor : tok.isHighlighted = false) (c : Color) : (h.mark x c).count = h.count + 1 := by
  have hout : h.isHighlighted x = false := by
    rw [hx, Tree.isColored, Tree.shows, htok]
    exact hcolor
  have hmarked : (h.mark x c).marked = h.marked.insert x := by
    rw [mark, htok]
  rw [count, hmarked, Std.ExtTreeSet.size_insert, if_neg]
  · rfl
  · exact Bool.eq_false_iff.1 hout

theorem count_fillOne (hsound : ∀ id, state.1.Sound id) (gap : NodeId × Color) :
    (fillOne state gap).2 + state.1.count = state.2 + (fillOne state gap).1.count := by
  rw [fillOne]
  split
  · next tok htok =>
    split
    · rfl
    · next hcolor =>
      rw [count_mark (hsound gap.1) htok (Bool.eq_false_iff.2 hcolor)]
      dsimp only
      omega
  · rfl

theorem count_foldl_fillOne (gaps : List (NodeId × Color)) (hsound : ∀ id, state.1.Sound id) :
    (gaps.foldl fillOne state).2 + state.1.count =
      state.2 + (gaps.foldl fillOne state).1.count := by
  induction gaps generalizing state with
  | nil => rfl
  | cons gap gaps ih =>
    have hone := count_fillOne hsound gap
    have hrest := ih (sound_fillOne hsound gap)
    rw [List.foldl_cons]
    omega

/-- **What is counted comes into the set.** -/
theorem count_fill (hh : h.Consistent) : h.fill.2 + h.count = h.fill.1.count := by
  have hcount : h.fill.2 + h.count = 0 + h.fill.1.count := count_foldl_fillOne h.gaps hh.sound
  rw [Nat.zero_add] at hcount
  exact hcount

/-! ### What a fill adds -/

theorem tokens_fill (h : Highlights) : h.fill.1.tree.tokens = h.tree.tokens :=
  Tree.congr_of_cleared Tree.tokens Tree.tokens_cleared (changes_fill h).cleared_eq

/-- A color that is there stays. -/
theorem color?_fill_of_isColored (hx : h.tree.isColored x = true) :
    h.fill.1.tree.color? x = h.tree.color? x := by
  rw [Tree.isColored_eq_isSome_color?] at hx
  rw [Tree.color?, token?_fill, Tree.color?]
  rw [Tree.color?] at hx
  cases htok : h.tree.token? x with
  | none => rfl
  | some tok =>
    rw [htok] at hx
    exact Option.or_of_isSome hx

theorem isColored_fill_of_isColored (hx : h.tree.isColored x = true) :
    h.fill.1.tree.isColored x = true := by
  rw [Tree.isColored_eq_isSome_color?, color?_fill_of_isColored hx,
    ← Tree.isColored_eq_isSome_color?, hx]

/-- **The number that is returned is how many tokens were colored.** -/
theorem fill_snd_eq_length (hh : h.Consistent) :
    h.fill.2 = (h.tree.newlyColored h.fill.1.tree).length := by
  have hfill : h.fill.1.Consistent := (changes_fill h).consistent hh
  have hcount := count_fill hh
  rw [hh.count_eq, hfill.count_eq] at hcount
  -- Behind the fill, the colored tokens are the new ones and those that were colored before.
  have hold : h.fill.1.tree.coloredTokens.filter h.tree.isColored = h.tree.coloredTokens := by
    rw [Tree.coloredTokens, List.filter_filter, tokens_fill, Tree.coloredTokens]
    refine List.filter_congr fun x _ => ?_
    cases hx : h.tree.isColored x with
    | false => rfl
    | true => rw [isColored_fill_of_isColored hx]; rfl
  have hnew : h.fill.1.tree.coloredTokens.filter (fun x => !h.tree.isColored x) =
      h.tree.newlyColored h.fill.1.tree := by
    rw [Tree.coloredTokens, List.filter_filter, tokens_fill]
    rfl
  have hsplit := List.length_eq_length_filter_add (l := h.fill.1.tree.coloredTokens)
    h.tree.isColored
  rw [hold, hnew] at hsplit
  omega

/-- A gap, in the list of the group around the token. -/
theorem Consistent.isGap_iff (hh : h.Consistent) :
    h.tree.IsGap x c ↔
      ∃ group before first gap next after,
        h.tree.parent? x = some group ∧
        h.tree.children group = before ++ first :: (gap ++ next :: after) ∧ x ∈ gap ∧
        h.tree.color? first = some c ∧ h.tree.isColored next = true ∧
        ∀ y ∈ gap, h.tree.CanFill y := by
  constructor
  · rintro ⟨group, before, first, _, gap, hchildren, hfirst, ⟨next, after, rfl, hnext, hgap⟩, hx⟩
    have hparent : h.tree.parent? x = some group := by
      refine hh.wellFormed.mem_children_iff.1 ?_
      rw [hchildren]
      simp [hx]
    exact ⟨group, before, first, gap, next, after, hparent, hchildren, hx, hfirst, hnext, hgap⟩
  · rintro ⟨group, before, first, gap, next, after, _, hchildren, hx, hfirst, hnext, hgap⟩
    exact ⟨group, before, first, _, gap, hchildren, hfirst, ⟨next, after, rfl, hnext, hgap⟩, hx⟩

/-- The set gains the tokens that are newly colored. -/
theorem isHighlighted_fill (hh : h.Consistent) :
    h.fill.1.isHighlighted x = true ↔
      h.isHighlighted x = true ∨ x ∈ h.tree.newlyColored h.fill.1.tree := by
  have hfill : h.fill.1.Consistent := (changes_fill h).consistent hh
  rw [hh.sound x, hfill.sound x, Tree.newlyColored, List.mem_filter, Bool.and_eq_true]
  constructor
  · intro hx
    cases hold : h.tree.isColored x with
    | true => exact Or.inl rfl
    | false =>
      have htok : (h.fill.1.tree.token? x).isSome = true := by
        obtain ⟨tok, _, htok, _⟩ := Tree.isColored_iff.1 hx
        rw [htok]
        rfl
      rw [← tokens_fill, hfill.wellFormed.mem_tokens_iff]
      exact Or.inr ⟨htok, rfl, hx⟩
  · rintro (hx | ⟨_, _, hx⟩)
    · exact isColored_fill_of_isColored hx
    · exact hx

/-! ### The contract of filling -/

/-- **What a fill does to a consistent state**, and so to every state of a run. It gives a color to
a token that had none just if the token lies in a gap: in the list of the group around it there is a
colored child before it and one behind it, and all children between these two are tokens without
color and address. It takes the color of the child before it. Colors that are there stay, no flag
changes, and neither does anything else of the tree. The set gains just the tokens that are newly
colored, and the number that is returned is how many they are. No gap is ever cut out of a list of
siblings where that list is not. -/
theorem fill_colors_gaps (hh : h.Consistent) :
    let g := h.fill.1
    (∀ x c, h.tree.color? x = none →
      (g.tree.color? x = some c ↔
        ∃ group before first gap next after,
          h.tree.parent? x = some group ∧
          h.tree.children group = before ++ first :: (gap ++ next :: after) ∧ x ∈ gap ∧
          h.tree.color? first = some c ∧ h.tree.isColored next = true ∧
          ∀ y ∈ gap, h.tree.CanFill y)) ∧
    (∀ x, h.tree.isColored x = true → g.tree.color? x = h.tree.color? x) ∧
    (∀ x, g.tree.isMatching x = h.tree.isMatching x) ∧
    g.tree.cleared = h.tree.cleared ∧
    (∀ x, g.isHighlighted x = true ↔
      h.isHighlighted x = true ∨ x ∈ h.tree.newlyColored g.tree) ∧
    h.fill.2 = (h.tree.newlyColored g.tree).length ∧
    (∀ group, h.tree.gapsByPosition (h.tree.children group) none 0 (h.tree.children group) =
      some (h.tree.gapsFrom none (h.tree.children group))) := by
  intro g
  have hfills : h.tree.Fills g.tree := fills_fill hh.wellFormed hh.sound
  refine ⟨?_, fun x hx => color?_fill_of_isColored hx, hfills.isMatching, hfills.cleared,
    fun x => isHighlighted_fill hh, fill_snd_eq_length hh,
    fun group => h.tree.gapsByPosition_siblings _⟩
  intro x c hx
  rw [hfills.color?, hx, ← hh.isGap_iff]
  exact or_iff_right (Option.some_ne_none c).symm

/-- A run that colors the two variables of a call. The comma between them takes their color, and the
fill is counted once. -/
theorem fill_colors_gaps_sample :
    let h := (start Tree.sample .default).run ((sampleSteps (.rgb 0 0 200)).take 4)
    h.Consistent ∧ h.fill.1.tree.color? 13 = some (.rgb 0 0 200) ∧
      h.fill.1.tree.color? 4 = h.tree.color? 4 ∧ h.fill.2 = 1 := by
  intro h
  have hh : h.Consistent := consistent_run Tree.reachable_sample Tree.isPlain_sample .default
    fun s hs => isPlain_sampleSteps _ s (List.mem_of_mem_take hs)
  obtain ⟨hcolor, hstays, _, _, _, hcount, _⟩ := fill_colors_gaps hh
  have hgap : ∀ y ∈ [13], h.tree.CanFill y := by
    intro y hy
    rw [List.mem_singleton.1 hy]
    exact ⟨.plain { text := "," }, by decide +kernel, rfl, rfl⟩
  have hnew : h.tree.newlyColored h.fill.1.tree = [13] := by decide +kernel
  refine ⟨hh, (hcolor 13 _ (by decide +kernel)).2 ?_, hstays 4 (by decide +kernel), ?_⟩
  · exact ⟨2, [3], 4, [13], 14, [], by decide +kernel, by decide +kernel, by decide,
      by decide +kernel, by decide +kernel, hgap⟩
  · rw [hcount, hnew]
    rfl

end Highlights

end TokenHighlight
