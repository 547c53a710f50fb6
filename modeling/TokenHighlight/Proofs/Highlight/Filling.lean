import TokenHighlight.Proofs.Highlight.Agreement
import TokenHighlight.Proofs.Tree.Structure

/-!
# Filling gaps

A gap is described without a scan: a colored child, then children that may lie in a gap, and then a
colored child again. The scan of `Tree.gapsFrom` finds just these. It goes through a list with a run
that may be open, so what it finds in the rest of a list is stated for an open run as well, and the
induction follows the scan.

A token lies in one gap at most, since the colored child that its gap begins with is the last one
before it. Every gap is therefore filled with one color, whichever group is looked at first, and
filling comes to giving each token in a gap the color of that gap.

## Main definitions

* `Tree.CanFill` — a token that may lie in a gap
* `Tree.IsGapIn`, `Tree.IsGap` — a token in a gap, with the color that it takes
* `Tree.Fills`, `Tree.filled` — a tree with its gaps filled, described and computed

## Main results

* `Tree.mem_gapsFrom_iff` — what a scan finds
* `Tree.IsGapIn.unique`, `Tree.WellFormed.isGap_unique` — a token lies in one gap
* `Tree.Fills.unique` — gaps can be filled in one way
* `Highlights.token?_fill`, `Highlights.fills_fill` — what filling does
-/

namespace TokenHighlight

namespace Tree

variable {t : Tree} {id x : NodeId} {c c' : Color} {ids rest gap : List NodeId}

/-! ### Gaps in a list of siblings -/

/-- A number names a token that has no address and no color. Such tokens may lie in a gap. -/
def CanFill (t : Tree) (id : NodeId) : Prop :=
  ∃ tok, t.token? id = some tok ∧ tok.address = none ∧ tok.highlight = none

/-- Nodes that may lie in a gap stand at the beginning of a list, and a colored one behind them. -/
def Reaches (t : Tree) (ids gap : List NodeId) : Prop :=
  ∃ next after, ids = gap ++ next :: after ∧ t.isColored next = true ∧ ∀ y ∈ gap, t.CanFill y

/-- A node lies in a gap of a list: between two colored ones, with none between these that could not
lie in a gap. It takes the color of the first of the two. -/
def IsGapIn (t : Tree) (ids : List NodeId) (x : NodeId) (c : Color) : Prop :=
  ∃ before first rest gap, ids = before ++ first :: rest ∧ t.color? first = some c ∧
    t.Reaches rest gap ∧ x ∈ gap

theorem CanFill.color?_eq_none (h : t.CanFill id) : t.color? id = none := by
  obtain ⟨tok, htok, _, hcolor⟩ := h
  rw [color?, htok]
  exact hcolor

theorem not_reaches_nil : ¬t.Reaches [] gap := by
  rintro ⟨next, after, h, _⟩
  simp at h

theorem reaches_cons_iff :
    t.Reaches (id :: rest) gap ↔
      (gap = [] ∧ t.isColored id = true) ∨
        ∃ tail, gap = id :: tail ∧ t.CanFill id ∧ t.Reaches rest tail := by
  constructor
  · rintro ⟨next, after, h, hnext, hgap⟩
    cases gap with
    | nil =>
      obtain ⟨rfl, rfl⟩ := List.cons.inj h
      exact Or.inl ⟨rfl, hnext⟩
    | cons y tail =>
      obtain ⟨rfl, rfl⟩ := List.cons.inj h
      obtain ⟨hid, htail⟩ := List.forall_mem_cons.1 hgap
      exact Or.inr ⟨tail, rfl, hid, next, after, rfl, hnext, htail⟩
  · rintro (⟨rfl, hid⟩ | ⟨tail, rfl, hid, next, after, rfl, hnext, htail⟩)
    · exact ⟨id, rest, rfl, hid, List.forall_mem_nil _⟩
    · exact ⟨next, after, rfl, hnext, List.forall_mem_cons.2 ⟨hid, htail⟩⟩

theorem not_isGapIn_nil : ¬t.IsGapIn [] x c := by
  rintro ⟨before, first, rest, gap, h, _⟩
  simp at h

/-- A gap begins behind the first node, or further on. -/
theorem isGapIn_cons_iff :
    t.IsGapIn (id :: rest) x c ↔
      (t.color? id = some c ∧ ∃ gap, t.Reaches rest gap ∧ x ∈ gap) ∨ t.IsGapIn rest x c := by
  constructor
  · rintro ⟨before, first, tail, gap, h, hfirst, hgap⟩
    cases before with
    | nil =>
      obtain ⟨rfl, rfl⟩ := List.cons.inj h
      exact Or.inl ⟨hfirst, gap, hgap⟩
    | cons y before =>
      obtain ⟨rfl, rfl⟩ := List.cons.inj h
      exact Or.inr ⟨before, first, tail, gap, rfl, hfirst, hgap⟩
  · rintro (⟨hid, gap, hgap⟩ | ⟨before, first, tail, gap, rfl, hfirst, hgap⟩)
    · exact ⟨[], id, rest, gap, rfl, hid, hgap⟩
    · exact ⟨id :: before, first, tail, gap, rfl, hfirst, hgap⟩

theorem isGapIn_cons_iff_of_color?_eq_none (hid : t.color? id = none) :
    t.IsGapIn (id :: rest) x c ↔ t.IsGapIn rest x c := by
  rw [isGapIn_cons_iff]
  refine or_iff_right ?_
  rintro ⟨hsome, _⟩
  rw [hid] at hsome
  cases hsome

/-- Behind nodes that may lie in a gap comes a color, so none of them lies in a later gap. -/
theorem Reaches.not_isGapIn (h : t.Reaches ids gap) (hids : ids.Nodup) (hx : x ∈ gap) :
    ¬t.IsGapIn ids x c := by
  induction gap generalizing ids with
  | nil => cases hx
  | cons y gap ih =>
    obtain ⟨next, after, rfl, hnext, hgap⟩ := h
    obtain ⟨hy, htail⟩ := List.forall_mem_cons.1 hgap
    obtain ⟨hmem, hnodup⟩ := List.nodup_cons.1 hids
    rw [List.cons_append, isGapIn_cons_iff_of_color?_eq_none hy.color?_eq_none]
    rcases List.mem_cons.1 hx with rfl | hx
    · rintro ⟨before, first, rest, gap', heq, _, ⟨_, _, rfl, _⟩, hx'⟩
      refine hmem ?_
      rw [List.append_eq, heq]
      simp [hx']
    · exact ih ⟨next, after, rfl, hnext, htail⟩ hnodup hx

/-- **A node lies in one gap of a list.** -/
theorem IsGapIn.unique (hids : ids.Nodup) (h : t.IsGapIn ids x c) (h' : t.IsGapIn ids x c') :
    c = c' := by
  induction ids with
  | nil => exact absurd h not_isGapIn_nil
  | cons id rest ih =>
    have hrest : rest.Nodup := (List.nodup_cons.1 hids).2
    rcases isGapIn_cons_iff.1 h with ⟨hc, gap, hgap, hx⟩ | h
    · rcases isGapIn_cons_iff.1 h' with ⟨hc', _⟩ | h'
      · exact Option.some.inj (hc.symm.trans hc')
      · exact absurd h' (hgap.not_isGapIn hrest hx)
    · rcases isGapIn_cons_iff.1 h' with ⟨_, gap, hgap, hx⟩ | h'
      · exact absurd h (hgap.not_isGapIn hrest hx)
      · exact ih hrest h h'

/-! ### What a scan finds -/

/-- What closes a run that is open before a list: the nodes since its color, and those up to the
next color in the list. -/
def ClosesRun (t : Tree) (run : Option (Color × List NodeId)) (ids : List NodeId) (x : NodeId)
    (c : Color) : Prop :=
  ∃ seen gap, run = some (c, seen) ∧ t.Reaches ids gap ∧ (x ∈ seen ∨ x ∈ gap)

variable {run : Option (Color × List NodeId)}

theorem not_closesRun_none : ¬t.ClosesRun none ids x c := by
  rintro ⟨_, _, h, _⟩
  cases h

/-- A colored node closes the run that is open before it, and begins one of its own. -/
theorem gapsFrom_cons_of_color? (hid : t.color? id = some c') :
    (x, c) ∈ t.gapsFrom run (id :: rest) ↔
      t.ClosesRun run (id :: rest) x c ∨ (x, c) ∈ t.gapsFrom (some (c', [])) rest := by
  obtain ⟨tok, htok, hcolor⟩ := Option.bind_eq_some_iff.1 hid
  have hcolored : t.isColored id = true := by
    rw [isColored_eq_isSome_color?, hid]
    rfl
  rw [gapsFrom.eq_def]
  simp only [htok, hcolor]
  rw [List.mem_append]
  refine or_congr_left ?_
  constructor
  · intro hx
    rcases run with _ | ⟨before, seen⟩
    · cases hx
    · obtain ⟨y, hy, heq⟩ := List.mem_map.1 hx
      obtain ⟨rfl, rfl⟩ := Prod.mk.inj heq
      exact ⟨seen, [], rfl, reaches_cons_iff.2 (Or.inl ⟨rfl, hcolored⟩),
        Or.inl (List.mem_reverse.1 hy)⟩
  · rintro ⟨seen, gap, rfl, hreaches, hx⟩
    rcases reaches_cons_iff.1 hreaches with ⟨rfl, _⟩ | ⟨_, _, hfill, _⟩
    · exact List.mem_map.2 ⟨x, List.mem_reverse.2 (hx.resolve_right List.not_mem_nil), rfl⟩
    · rw [hfill.color?_eq_none] at hid
      cases hid

/-- A node that may lie in a gap goes to the run. -/
theorem gapsFrom_cons_of_canFill (hid : t.CanFill id) :
    t.gapsFrom run (id :: rest) =
      t.gapsFrom (run.map fun (before, seen) => (before, id :: seen)) rest := by
  obtain ⟨tok, htok, haddress, hcolor⟩ := hid
  rw [gapsFrom.eq_def]
  simp only [htok, haddress, hcolor]

theorem closesRun_cons_of_canFill (hid : t.CanFill id) :
    t.ClosesRun run (id :: rest) x c ↔
      t.ClosesRun (run.map fun (before, seen) => (before, id :: seen)) rest x c := by
  constructor
  · rintro ⟨seen, gap, rfl, hreaches, hx⟩
    rcases reaches_cons_iff.1 hreaches with ⟨rfl, hcolored⟩ | ⟨tail, rfl, _, hreaches⟩
    · rw [isColored_eq_isSome_color?, hid.color?_eq_none] at hcolored
      cases hcolored
    · refine ⟨id :: seen, tail, rfl, hreaches, ?_⟩
      rw [List.mem_cons] at hx ⊢
      tauto
  · rintro ⟨seen', gap, hrun, hreaches, hx⟩
    obtain ⟨⟨before, seen⟩, rfl, heq⟩ := Option.map_eq_some_iff.1 hrun
    obtain ⟨rfl, rfl⟩ := Prod.mk.inj heq
    refine ⟨seen, id :: gap, rfl, reaches_cons_iff.2 (Or.inr ⟨gap, rfl, hid, hreaches⟩), ?_⟩
    rw [List.mem_cons] at hx ⊢
    tauto

/-- Any other node ends the run. -/
theorem gapsFrom_cons_of_not_canFill (hcolor : t.color? id = none) (hid : ¬t.CanFill id) :
    t.gapsFrom run (id :: rest) = t.gapsFrom none rest := by
  rw [gapsFrom.eq_def]
  dsimp only
  split
  · rfl
  · next tok htok =>
    rw [color?, htok] at hcolor
    have hhighlight : tok.highlight = none := hcolor
    cases haddress : tok.address with
    | none => exact absurd ⟨tok, htok, haddress, hhighlight⟩ hid
    | some address => simp only [hhighlight]

theorem not_closesRun_cons (hcolor : t.color? id = none) (hid : ¬t.CanFill id) :
    ¬t.ClosesRun run (id :: rest) x c := by
  rintro ⟨_, _, _, hreaches, _⟩
  rcases reaches_cons_iff.1 hreaches with ⟨_, hcolored⟩ | ⟨_, _, hfill, _⟩
  · rw [isColored_eq_isSome_color?, hcolor] at hcolored
    cases hcolored
  · exact hid hfill

/-- **What a scan finds.** The gaps of the list, and what closes the run that is open before it. -/
theorem mem_gapsFrom_iff :
    (x, c) ∈ t.gapsFrom run ids ↔ t.IsGapIn ids x c ∨ t.ClosesRun run ids x c := by
  induction ids generalizing run with
  | nil =>
    rw [gapsFrom.eq_def]
    refine iff_of_false List.not_mem_nil (not_or.2 ⟨not_isGapIn_nil, ?_⟩)
    rintro ⟨_, _, _, hreaches, _⟩
    exact not_reaches_nil hreaches
  | cons id rest ih =>
    cases hcolor : t.color? id with
    | some c' =>
      have hrun : t.ClosesRun (some (c', [])) rest x c ↔
          t.color? id = some c ∧ ∃ gap, t.Reaches rest gap ∧ x ∈ gap := by
        rw [hcolor]
        constructor
        · rintro ⟨seen, gap, hrun, hreaches, hx⟩
          obtain ⟨rfl, rfl⟩ := Prod.mk.inj (Option.some.inj hrun)
          exact ⟨rfl, gap, hreaches, hx.resolve_left List.not_mem_nil⟩
        · rintro ⟨hc, gap, hreaches, hx⟩
          cases hc
          exact ⟨[], gap, rfl, hreaches, Or.inr hx⟩
      rw [gapsFrom_cons_of_color? hcolor, ih, isGapIn_cons_iff, ← hrun]
      tauto
    | none =>
      rw [isGapIn_cons_iff_of_color?_eq_none hcolor]
      by_cases hid : t.CanFill id
      · rw [gapsFrom_cons_of_canFill hid, closesRun_cons_of_canFill hid, ih]
      · rw [gapsFrom_cons_of_not_canFill hcolor hid, ih]
        exact or_congr_right (iff_of_false not_closesRun_none (not_closesRun_cons hcolor hid))

/-! ### Gaps of a tree -/

/-- **A token lies in a gap.** Its group has a colored child before it and another one behind it,
and between these two only tokens without address and color. It takes the color of the first. -/
def IsGap (t : Tree) (x : NodeId) (c : Color) : Prop :=
  ∃ group, t.IsGapIn (t.children group) x c

theorem IsGapIn.canFill (h : t.IsGapIn ids x c) : t.CanFill x ∧ x ∈ ids := by
  obtain ⟨before, first, _, gap, rfl, _, ⟨next, after, rfl, _, hgap⟩, hx⟩ := h
  exact ⟨hgap x hx, by simp [hx]⟩

theorem IsGap.canFill (h : t.IsGap x c) : t.CanFill x := by
  obtain ⟨_, h⟩ := h
  exact h.canFill.1

/-- **A token lies in one gap.** It is in the list of one group, and in one gap of the list. -/
theorem WellFormed.isGap_unique (hwf : t.WellFormed) (h : t.IsGap x c) (h' : t.IsGap x c') :
    c = c' := by
  obtain ⟨group, h⟩ := h
  obtain ⟨group', h'⟩ := h'
  have hgroup : t.parent? x = some group := hwf.mem_children_iff.1 h.canFill.2
  rw [hwf.mem_children_iff.1 h'.canFill.2] at hgroup
  cases hgroup
  exact h.unique (hwf.nodup_children _) h'

/-- One tree is another with its gaps filled: the tokens in gaps have their colors, and nothing else
is different. -/
structure Fills (t t' : Tree) : Prop where
  cleared : t'.cleared = t.cleared
  isMatching : ∀ x, t'.isMatching x = t.isMatching x
  color? : ∀ x c, t'.color? x = some c ↔ t.color? x = some c ∨ t.IsGap x c

/-- The gaps of a tree can be filled in one way. -/
theorem Fills.unique {a b : Tree} (ha : t.Fills a) (hb : t.Fills b) : a = b := by
  refine ext_of_color? (ha.cleared.trans hb.cleared.symm) (fun x => Option.ext fun c => ?_)
    fun x => (ha.isMatching x).trans (hb.isMatching x).symm
  rw [ha.color?, hb.color?]

end Tree

namespace Highlights

variable {h : Highlights} {x : NodeId} {c : Color}

/-! ### What filling does -/

theorem mem_highlightedGroups_iff {group : NodeId} :
    group ∈ h.highlightedGroups ↔
      ∃ y, h.isHighlighted y = true ∧ h.tree.parent? y = some group := by
  rw [highlightedGroups, Std.ExtTreeSet.mem_toList, Std.ExtTreeSet.mem_ofList,
    List.contains_iff_mem, List.mem_filterMap]
  refine exists_congr fun y => and_congr_left fun _ => ?_
  rw [Std.ExtTreeSet.mem_toList]
  rfl

/-- What is found in all groups with a highlighted child. Groups without one have no gaps. -/
theorem mem_gaps_iff (hwf : h.tree.WellFormed) (hsound : ∀ id, h.Sound id) :
    (x, c) ∈ h.gaps ↔ h.tree.IsGap x c := by
  have hscan : ∀ group, (x, c) ∈ h.tree.gapsFrom none (h.tree.children group) ↔
      h.tree.IsGapIn (h.tree.children group) x c := fun group =>
    Tree.mem_gapsFrom_iff.trans (or_iff_left Tree.not_closesRun_none)
  rw [gaps, List.mem_flatMap]
  constructor
  · rintro ⟨group, _, hx⟩
    exact ⟨group, (hscan group).1 hx⟩
  · rintro ⟨group, hx⟩
    refine ⟨group, ?_, (hscan group).2 hx⟩
    obtain ⟨before, first, rest, _, hchildren, hfirst, _⟩ := hx
    have hcolored : h.isHighlighted first = true := by
      rw [hsound first, Tree.isColored_eq_isSome_color?, hfirst]
      rfl
    have hmem : first ∈ h.tree.children group := by
      rw [hchildren]
      simp
    exact mem_highlightedGroups_iff.2 ⟨first, hcolored, hwf.mem_children_iff.1 hmem⟩

theorem token?_fillOne (state : Highlights × Nat) (gap : NodeId × Color) (x : NodeId) :
    (fillOne state gap).1.tree.token? x = (state.1.tree.token? x).map fun tok =>
      { tok with highlight := tok.highlight.or (if x = gap.1 then some gap.2 else none) } := by
  obtain ⟨y, c⟩ := gap
  rw [fillOne]
  by_cases hx : x = y
  · subst hx
    rcases ht : state.1.tree.token? x with _ | ⟨data, _ | color, matching⟩
    · simp [ht]
    · simp [Token.isHighlighted, token?_mark, ht]
    · simp [Token.isHighlighted, ht]
  · simp only [if_neg hx, Option.or_none, Option.map_id']
    split
    · split
      · rfl
      · rw [token?_mark, if_neg (Ne.symm hx)]
    · rfl

/-- A loop of fills gives a token without color the first color that is listed for it. -/
theorem token?_foldl_fillOne (gaps : List (NodeId × Color)) (state : Highlights × Nat)
    (x : NodeId) :
    (gaps.foldl fillOne state).1.tree.token? x = (state.1.tree.token? x).map fun tok =>
      { tok with highlight := tok.highlight.or (gaps.lookup x) } := by
  induction gaps generalizing state with
  | nil => simp
  | cons gap gaps ih =>
    have hlookup : List.lookup x (gap :: gaps) =
        (if x = gap.1 then some gap.2 else none).or (gaps.lookup x) := by
      obtain ⟨y, c⟩ := gap
      rw [List.lookup_cons]
      by_cases hx : x = y
      · simp [hx]
      · simp [hx, beq_false_of_ne hx]
    rw [List.foldl_cons, ih, token?_fillOne, Option.map_map, hlookup]
    simp only [Function.comp_def, Option.or_assoc]

/-- **What filling does to a token.** One without color gets that of its gap, if it lies in one. -/
theorem token?_fill (h : Highlights) (x : NodeId) :
    h.fill.1.tree.token? x = (h.tree.token? x).map fun tok =>
      { tok with highlight := tok.highlight.or (h.gaps.lookup x) } :=
  token?_foldl_fillOne h.gaps (h, 0) x

/-- Whatever is listed for a node is found, if all of it is the same. -/
theorem lookup_eq_some_iff_mem {gaps : List (NodeId × Color)}
    (hunique : ∀ c c', (x, c) ∈ gaps → (x, c') ∈ gaps → c = c') :
    gaps.lookup x = some c ↔ (x, c) ∈ gaps := by
  have hmem : ∀ {c}, gaps.lookup x = some c → (x, c) ∈ gaps := by
    intro c hc
    obtain ⟨before, after, rfl, _⟩ := List.lookup_eq_some_iff.1 hc
    simp
  refine ⟨hmem, fun hc => ?_⟩
  cases hx : gaps.lookup x with
  | none =>
    have hne := List.lookup_eq_none_iff.1 hx (x, c) hc
    simp at hne
  | some c' => rw [hunique c' c (hmem hx) hc]

/-- **Filling fills the gaps of the tree**, if set and colors agree. -/
theorem fills_fill (hwf : h.tree.WellFormed) (hsound : ∀ id, h.Sound id) :
    h.tree.Fills h.fill.1.tree where
  cleared := (changes_fill h).cleared_eq
  isMatching x := by
    rw [Tree.isMatching, Tree.isMatching, Tree.shows, Tree.shows, token?_fill, Option.any_map]
  color? x c := by
    have hgap : h.gaps.lookup x = some c ↔ h.tree.IsGap x c := by
      rw [lookup_eq_some_iff_mem fun c c' hc hc' => ?_, mem_gaps_iff hwf hsound]
      exact hwf.isGap_unique ((mem_gaps_iff hwf hsound).1 hc) ((mem_gaps_iff hwf hsound).1 hc')
    rw [Tree.color?, Tree.color?, token?_fill]
    cases ht : h.tree.token? x with
    | none =>
      refine iff_of_false (Option.some_ne_none c).symm (not_or.2 ⟨(Option.some_ne_none c).symm, ?_⟩)
      intro hx
      obtain ⟨tok, htok, _⟩ := hx.canFill
      rw [ht] at htok
      cases htok
    | some tok =>
      show tok.highlight.or (h.gaps.lookup x) = some c ↔ tok.highlight = some c ∨ _
      rw [Option.or_eq_some_iff, hgap]
      refine or_congr_right (and_iff_right_of_imp fun hx => ?_)
      have hnone := hx.canFill.color?_eq_none
      rw [Tree.color?, ht] at hnone
      exact hnone

end Highlights

namespace Tree

/-- A tree with its gaps filled, the set of highlighted nodes being made from its colors. -/
def filled (t : Tree) : Tree :=
  (Highlights.mk t (.ofList t.coloredTokens compare) .default).fill.1.tree

theorem WellFormed.fills_filled {t : Tree} (h : t.WellFormed) : t.Fills t.filled := by
  refine Highlights.fills_fill (h := ⟨t, _, _⟩) h fun id => ?_
  rw [Highlights.Sound, Highlights.isHighlighted, Std.ExtTreeSet.contains_ofList,
    Bool.eq_iff_iff, List.contains_iff_mem, coloredTokens, List.mem_filter, h.mem_tokens_iff,
    and_iff_right_iff_imp]
  intro hcolored
  obtain ⟨tok, _, htok, _⟩ := isColored_iff.1 hcolored
  rw [htok]
  rfl

end Tree

end TokenHighlight
