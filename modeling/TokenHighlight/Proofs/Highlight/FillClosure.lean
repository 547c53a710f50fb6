import TokenHighlight.Proofs.Highlight.FilledGaps

/-!
# Filling is a closure

Which colors a fill gives depends on the colors that are there. Which tokens it highlights does not:
a token without address comes into the set if, on both sides, nothing but tokens without address
lies between it and a sibling in the set. `Tree.Bridged` says so of a set of nodes, whatever the
colors are, and whatever part of the tokens in between is in the set already.

Put like this, filling is a closure operator, and that it is one needs no look at the scan. More
nodes in the set bridge no fewer tokens, because nothing in `Tree.Bridged` asks for a node to be
outside of the set. And a token that is bridged itself bridges nothing new: whoever comes to it over
tokens without address goes on over it, and comes to the node that it was bridged from.

A gap ends at the nearest colored sibling on either side, and a bridged token may have further ones
behind that. Between the two descriptions lies only the choice of the nearest
(`Tree.Meets.reaches`).

## Main definitions

* `Tree.Meets`, `Tree.Bridged` — a marked sibling on one side, and on both
* `Tree.InClosure` — what is marked, and what is bridged

## Main results

* `Tree.InClosure.mono`, `Tree.inClosure_inClosure` — a closure operator on sets of nodes
* `Highlights.isHighlighted_fill_iff` — what is in the set behind a fill
* `Highlights.fill_fill` — nothing is left to fill
* `Highlights.fill_closes` — the whole contract of filling as a closure
-/

namespace TokenHighlight

namespace Tree

variable {t t' : Tree} {marked marked' : NodeId → Prop} {x y group : NodeId}
  {ids gap rest front back : List NodeId}

/-! ### Marked siblings on one side -/

/-- A number names a token that has no address, colored or not. -/
def Unaddressed (t : Tree) (id : NodeId) : Prop :=
  ∃ tok, t.token? id = some tok ∧ tok.address = none

/-- At the beginning of a list one comes to a marked node over tokens without address. -/
def Meets (t : Tree) (marked : NodeId → Prop) (ids : List NodeId) : Prop :=
  ∃ gap next after, ids = gap ++ next :: after ∧ marked next ∧ ∀ y ∈ gap, t.Unaddressed y

theorem not_meets_nil : ¬t.Meets marked [] := by
  rintro ⟨gap, next, after, h, _⟩
  simp at h

theorem meets_cons_iff :
    t.Meets marked (x :: rest) ↔ marked x ∨ (t.Unaddressed x ∧ t.Meets marked rest) := by
  constructor
  · rintro ⟨gap, next, after, h, hnext, hgap⟩
    cases gap with
    | nil =>
      obtain ⟨rfl, rfl⟩ := List.cons.inj h
      exact Or.inl hnext
    | cons y gap =>
      obtain ⟨rfl, rfl⟩ := List.cons.inj h
      obtain ⟨hx, hgap⟩ := List.forall_mem_cons.1 hgap
      exact Or.inr ⟨hx, gap, next, after, rfl, hnext, hgap⟩
  · rintro (hx | ⟨hx, gap, next, after, rfl, hnext, hgap⟩)
    · exact ⟨[], x, rest, rfl, hx, List.forall_mem_nil _⟩
    · exact ⟨x :: gap, next, after, rfl, hnext, List.forall_mem_cons.2 ⟨hx, hgap⟩⟩

theorem Meets.mono (h : t.Meets marked ids) (hsub : ∀ y, marked y → marked' y) :
    t.Meets marked' ids := by
  obtain ⟨gap, next, after, hids, hnext, hgap⟩ := h
  exact ⟨gap, next, after, hids, hsub next hnext, hgap⟩

/-- Tokens without address in front of a list are no hindrance. -/
theorem Meets.append (h : t.Meets marked rest) (hgap : ∀ y ∈ gap, t.Unaddressed y) :
    t.Meets marked (gap ++ rest) := by
  obtain ⟨gap', next, after, rfl, hnext, hgap'⟩ := h
  refine ⟨gap ++ gap', next, after, (List.append_assoc _ _ _).symm, hnext, ?_⟩
  intro y hy
  rcases List.mem_append.1 hy with hy | hy
  · exact hgap y hy
  · exact hgap' y hy

/-! ### Bridged tokens -/

/-- A token without address has a marked sibling on either side, with nothing but tokens without
address up to it. -/
def Bridged (t : Tree) (marked : NodeId → Prop) (x : NodeId) : Prop :=
  ∃ group front back, t.children group = front ++ x :: back ∧ t.Unaddressed x ∧
    t.Meets marked front.reverse ∧ t.Meets marked back

/-- What is marked, and what is bridged. -/
def InClosure (t : Tree) (marked : NodeId → Prop) (x : NodeId) : Prop :=
  marked x ∨ t.Bridged marked x

/-- **The closure is monotone.** -/
theorem InClosure.mono (h : t.InClosure marked x) (hsub : ∀ y, marked y → marked' y) :
    t.InClosure marked' x := by
  rcases h with hx | ⟨group, front, back, hchildren, hx, hleft, hright⟩
  · exact Or.inl (hsub x hx)
  · exact Or.inr ⟨group, front, back, hchildren, hx, hleft.mono hsub, hright.mono hsub⟩

/-- A bridged token has its marked siblings wherever one finds it, since it stands in one list and
once in it. -/
theorem WellFormed.bridged_iff (hwf : t.WellFormed) (hx : t.children group = front ++ x :: back) :
    t.Bridged marked x ↔
      t.Unaddressed x ∧ t.Meets marked front.reverse ∧ t.Meets marked back := by
  constructor
  · rintro ⟨group', front', back', hx', hbridged⟩
    have hparent : ∀ {group front back}, t.children group = front ++ x :: back →
        t.parent? x = some group := by
      intro group front back hx
      refine hwf.mem_children_iff.1 ?_
      rw [hx]
      simp
    obtain rfl : group = group' := Option.some.inj ((hparent hx).symm.trans (hparent hx'))
    have hnodup := hwf.nodup_children group
    rw [hx', List.nodup_middle, List.nodup_cons, List.mem_append, not_or] at hnodup
    obtain ⟨⟨hfront, hback⟩, _⟩ := hnodup
    obtain ⟨rfl, _, rfl⟩ := (List.append_cons_inj_of_notMem hfront hback).1 (hx'.symm.trans hx)
    exact hbridged
  · intro h
    exact ⟨group, front, back, hx, h⟩

/-- A bridged token that one comes to is passed over, up to the node that it was bridged from. -/
theorem Meets.of_inClosure (h : t.Meets (t.InClosure marked) ids)
    (hbridged : ∀ gap next after, ids = gap ++ next :: after → t.Bridged marked next →
      t.Unaddressed next ∧ t.Meets marked after) : t.Meets marked ids := by
  obtain ⟨gap, next, after, hids, hnext, hgap⟩ := h
  rcases hnext with hnext | hnext
  · exact ⟨gap, next, after, hids, hnext, hgap⟩
  · obtain ⟨hfree, hafter⟩ := hbridged gap next after hids hnext
    rw [hids]
    exact Meets.append (meets_cons_iff.2 (Or.inr ⟨hfree, hafter⟩)) hgap

/-- **The closure is idempotent**: the closure of a closure adds nothing. -/
theorem WellFormed.inClosure_inClosure (hwf : t.WellFormed)
    (h : t.InClosure (t.InClosure marked) x) : t.InClosure marked x := by
  rcases h with hx | ⟨group, front, back, hchildren, hx, hleft, hright⟩
  · exact hx
  · refine Or.inr ⟨group, front, back, hchildren, hx, hleft.of_inClosure ?_,
      hright.of_inClosure ?_⟩
    · intro gap next after hfront hnext
      have hsplit : t.children group = after.reverse ++ next :: (gap.reverse ++ x :: back) := by
        rw [hchildren, ← List.reverse_reverse front, hfront]
        simp
      obtain ⟨hfree, hafter, _⟩ := (hwf.bridged_iff hsplit).1 hnext
      rw [List.reverse_reverse] at hafter
      exact ⟨hfree, hafter⟩
    · intro gap next after hback hnext
      have hsplit : t.children group = (front ++ x :: gap) ++ next :: after := by
        rw [hchildren, hback]
        simp
      obtain ⟨hfree, _, hafter⟩ := (hwf.bridged_iff hsplit).1 hnext
      exact ⟨hfree, hafter⟩

/-- The closure does not see what is displayed. -/
theorem inClosure_congr (h : t.cleared = t'.cleared) : t.InClosure = t'.InClosure := by
  refine congr_of_cleared InClosure (fun t => ?_) h
  have haddress : t.cleared.Unaddressed = t.Unaddressed := by
    funext id
    rw [Unaddressed, Unaddressed, token?_cleared]
    cases t.token? id <;> simp [Token.cleared]
  funext marked x
  simp only [InClosure, Bridged, Meets, haddress, children_cleared]

/-! ### Gaps and bridges -/

theorem canFill_iff : t.CanFill x ↔ t.Unaddressed x ∧ t.isColored x = false := by
  rw [isColored, shows]
  constructor
  · rintro ⟨tok, htok, haddress, hcolor⟩
    refine ⟨⟨tok, htok, haddress⟩, ?_⟩
    rw [htok, Option.any_some, Token.isHighlighted, hcolor]
    rfl
  · rintro ⟨⟨tok, htok, haddress⟩, hcolor⟩
    rw [htok] at hcolor
    exact ⟨tok, htok, haddress, by simpa [Token.isHighlighted] using hcolor⟩

/-- **The nearest color is enough.** Where one comes to a color over tokens without address, those
up to the first color have none. -/
theorem Meets.reaches (h : t.Meets (fun y => t.isColored y = true) ids) :
    ∃ gap, t.Reaches ids gap := by
  induction ids with
  | nil => exact absurd h not_meets_nil
  | cons y rest ih =>
    cases hcolor : t.isColored y with
    | true => exact ⟨[], reaches_cons_iff.2 (Or.inl ⟨rfl, hcolor⟩)⟩
    | false =>
      obtain ⟨hy, hrest⟩ := (meets_cons_iff.1 h).resolve_left (by rw [hcolor]; decide)
      obtain ⟨gap, hgap⟩ := ih hrest
      exact ⟨y :: gap,
        reaches_cons_iff.2 (Or.inr ⟨gap, rfl, canFill_iff.2 ⟨hy, hcolor⟩, hgap⟩)⟩

/-- A token lies in a gap just if it has no color and is bridged from colors. -/
theorem exists_isGap_iff :
    (∃ c, t.IsGap x c) ↔
      t.isColored x = false ∧ t.Bridged (fun y => t.isColored y = true) x := by
  constructor
  · rintro ⟨c, group, before, first, _, gap, hchildren, hfirst, ⟨next, after, rfl, hnext, hgap⟩,
      hx⟩
    -- From `x` the two parts of the gap lead to the two colors at its ends.
    obtain ⟨left, right, rfl⟩ := List.append_of_mem hx
    obtain ⟨hfree, hcolor⟩ := canFill_iff.1 (hgap x hx)
    have hcolored : t.isColored first = true := by
      rw [isColored_eq_isSome_color?, hfirst]
      rfl
    refine ⟨hcolor, group, before ++ first :: left, right ++ next :: after, ?_, hfree, ?_, ?_⟩
    · rw [hchildren]
      simp
    · refine ⟨left.reverse, first, before.reverse, by simp, hcolored, ?_⟩
      intro y hy
      exact (canFill_iff.1 (hgap y (List.mem_append_left _ (List.mem_reverse.1 hy)))).1
    · refine ⟨right, next, after, rfl, hnext, ?_⟩
      intro y hy
      exact (canFill_iff.1 (hgap y (List.mem_append_right _ (List.mem_cons_of_mem _ hy)))).1
  · rintro ⟨hcolor, group, front, back, hchildren, hfree, hleft, hright⟩
    -- The nearest colors on both sides are the ends of a gap, and `x` lies in it.
    obtain ⟨left, first, before, hfront, hfirst, hgapleft⟩ := hleft.reaches
    obtain ⟨right, next, after, rfl, hnext, hgapright⟩ := hright.reaches
    rw [isColored_eq_isSome_color?, Option.isSome_iff_exists] at hfirst
    obtain ⟨c, hc⟩ := hfirst
    refine ⟨c, group, before.reverse, first, _, left.reverse ++ x :: right, ?_, hc,
      ⟨next, after, rfl, hnext, ?_⟩, by simp⟩
    · rw [hchildren, ← List.reverse_reverse front, hfront]
      simp
    · intro y hy
      rcases List.mem_append.1 hy with hy | hy
      · exact hgapleft y (List.mem_reverse.1 hy)
      · rcases List.mem_cons.1 hy with rfl | hy
        · exact canFill_iff.2 ⟨hfree, hcolor⟩
        · exact hgapright y hy

end Tree

namespace Highlights

variable {h : Highlights} {x : NodeId}

/-! ### The set behind a fill -/

/-- The nodes in the set. -/
def InSet (h : Highlights) (x : NodeId) : Prop :=
  h.isHighlighted x = true

instance (h : Highlights) (x : NodeId) : Decidable (h.InSet x) :=
  inferInstanceAs (Decidable (_ = true))

theorem Consistent.inSet_eq (hh : h.Consistent) : h.InSet = fun y => h.tree.isColored y = true := by
  funext y
  rw [InSet, hh.sound y]

/-- **What is in the set behind a fill**: what was in it, and what is bridged from that. -/
theorem isHighlighted_fill_iff (hh : h.Consistent) :
    h.fill.1.InSet x ↔ h.tree.InClosure h.InSet x := by
  have hfills : h.tree.Fills h.fill.1.tree := fills_fill hh.wellFormed hh.sound
  have hcolored : h.fill.1.tree.isColored x = true ↔
      h.tree.isColored x = true ∨ ∃ c, h.tree.IsGap x c := by
    simp only [Tree.isColored_eq_isSome_color?, Option.isSome_iff_exists, hfills.color?, exists_or]
  have hfill : h.fill.1.Consistent := (changes_fill h).consistent hh
  rw [hfill.inSet_eq, hh.inSet_eq]
  show h.fill.1.tree.isColored x = true ↔ h.tree.isColored x = true ∨ _
  rw [hcolored, Tree.exists_isGap_iff]
  cases h.tree.isColored x <;> simp

/-- No gap is left behind a fill. -/
theorem not_isGap_fill (hh : h.Consistent) (c : Color) : ¬h.fill.1.tree.IsGap x c := by
  intro hx
  have hfill : h.fill.1.Consistent := (changes_fill h).consistent hh
  obtain ⟨hcolor, hbridged⟩ := Tree.exists_isGap_iff.1 ⟨c, hx⟩
  rw [← hfill.inSet_eq] at hbridged
  have hset : h.fill.1.InSet = h.tree.InClosure h.InSet := by
    funext y
    exact propext (isHighlighted_fill_iff hh)
  have hclosed : h.tree.InClosure (h.tree.InClosure h.InSet) x := by
    rw [← hset, ← Tree.inClosure_congr (changes_fill h).cleared_eq]
    exact Or.inr hbridged
  have hin : h.fill.1.InSet x :=
    (isHighlighted_fill_iff hh).2 (hh.wellFormed.inClosure_inClosure hclosed)
  rw [hfill.inSet_eq, hcolor] at hin
  cases hin

/-- **Nothing is left to fill**, so a second fill gives back the state and counts nothing. -/
theorem fill_fill (hh : h.Consistent) : h.fill.1.fill = (h.fill.1, 0) := by
  have hfill : h.fill.1.Consistent := (changes_fill h).consistent hh
  have hnil : h.fill.1.gaps = [] := by
    rw [List.eq_nil_iff_forall_not_mem]
    rintro ⟨x, c⟩ hx
    exact not_isGap_fill hh c ((mem_gaps_iff hfill.wellFormed hfill.sound).1 hx)
  rw [fill, hnil]
  rfl

/-! ### The contract of filling as a closure -/

/-- **Filling closes the set**, in every consistent state and so in every state of a run. What is in
the set afterwards is what was in it, with the color that it had, and what is bridged from that. A
second fill changes nothing and counts nothing. And of two sets for the same document, whatever the
colors are, the one that includes the other still does so when both are filled. -/
theorem fill_closes (hh : h.Consistent) :
    (∀ x, h.fill.1.InSet x ↔ h.tree.InClosure h.InSet x) ∧
    (∀ x, h.InSet x → h.fill.1.InSet x ∧ h.fill.1.tree.color? x = h.tree.color? x) ∧
    h.fill.1.fill = (h.fill.1, 0) ∧
    (∀ {h' : Highlights}, h'.Consistent → h'.tree.cleared = h.tree.cleared →
      (∀ x, h.InSet x → h'.InSet x) → ∀ x, h.fill.1.InSet x → h'.fill.1.InSet x) := by
  refine ⟨?_, ?_, fill_fill hh, ?_⟩
  · intro x
    exact isHighlighted_fill_iff hh
  · intro x hx
    refine ⟨(isHighlighted_fill_iff hh).2 (Or.inl hx), color?_fill_of_isColored ?_⟩
    rw [hh.inSet_eq] at hx
    exact hx
  · intro h' hh' htree hsub x hx
    rw [isHighlighted_fill_iff hh', Tree.inClosure_congr htree]
    exact ((isHighlighted_fill_iff hh).1 hx).mono hsub

/-- Two runs in one document. The first colors the two variables of a call in blue, the second one
colors them and the comma between them in green. The fill of the first brings the comma into the
set, and with it nothing that is not in the filled set of the second. -/
theorem fill_closes_sample :
    let h := (start Tree.sample .default).run ((sampleSteps (.rgb 0 0 200)).take 4)
    let h' := (start Tree.sample .default).run
      ((sampleSteps (.rgb 0 200 0)).take 4 ++ [.operate (.setHighlight 13 (.rgb 0 200 0))])
    h.fill.1.InSet 13 ∧ h.fill.1.tree.color? 14 = h.tree.color? 14 ∧
      h.fill.1.fill = (h.fill.1, 0) ∧ h'.fill.1.InSet 13 := by
  intro h h'
  have hplain : ∀ c, ∀ s ∈ (sampleSteps c).take 4, s.IsPlain := by
    intro c s hs
    exact isPlain_sampleSteps c s (List.mem_of_mem_take hs)
  have hh : h.Consistent :=
    consistent_run Tree.reachable_sample Tree.isPlain_sample .default (hplain _)
  have hh' : h'.Consistent := by
    refine consistent_run Tree.reachable_sample Tree.isPlain_sample .default ?_
    exact List.forall_mem_append.2 ⟨hplain _, List.forall_mem_singleton.2 trivial⟩
  obtain ⟨hset, hstays, hagain, hmono⟩ := fill_closes hh
  have hbridged : h.tree.Bridged h.InSet 13 :=
    ⟨2, [3, 4], [14], by decide +kernel, ⟨.plain { text := "," }, by decide +kernel, rfl⟩,
      ⟨[], 4, [3], rfl, by decide +kernel, List.forall_mem_nil _⟩,
      ⟨[], 14, [], rfl, by decide +kernel, List.forall_mem_nil _⟩⟩
  have hin : h.fill.1.InSet 13 := (hset 13).2 (Or.inr hbridged)
  have hsub : ∀ x, h.InSet x → h'.InSet x := by
    intro x hx
    have hlist : h.marked.toList = [4, 14] := by decide +kernel
    have hmem : x ∈ h.marked.toList := Std.ExtTreeSet.mem_toList.2 hx
    rw [hlist, List.mem_pair] at hmem
    rcases hmem with rfl | rfl
    · decide +kernel
    · decide +kernel
  exact ⟨hin, (hstays 14 (by decide +kernel)).2, hagain,
    hmono hh' (by decide +kernel) hsub 13 hin⟩

end Highlights

end TokenHighlight
