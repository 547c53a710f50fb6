import TokenHighlight.Proofs.Highlight.Range

/-!
# The range of a single pair

A document in which a pair has one opening end and one closing end has one range for it, the slice
between the two. The ends may lie in different groups, and then some groups around a bracket see one
end only, and several may see both. A group with one end finds nothing, since a scan commits to a
span only where it is closed. A group with both ends finds the whole slice, since the tokens below a
group are a segment of the document. So what the scans find is the slice over and over, and keeping
the first place of every token leaves it once, in document order.

If the closing end comes first, no scan finds anything.

## Main definitions

* `Tree.IsSinglePair` — the places of the only ends of a pair

## Main results

* `Tree.firstsFrom_flatten_replicate` — a list that is repeated, with each node once
* `Tree.IsSinglePair.eq_slice` — every span of the pair is the slice between its ends
* `Tree.IsSinglePair.bracketRange_eq` — the range that is looked for from either end
* `Highlights.highlightBracket_colors_slice` — the whole contract for single pairs
-/

namespace TokenHighlight

namespace Tree

variable {t : Tree} {pair : UInt32} {i j : Nat}

/-! ### Each node once -/

theorem firstsFrom_eq_nil {seen : NodeSet} {ids : List NodeId}
    (hids : ∀ x ∈ ids, seen.contains x = true) : firstsFrom seen ids = [] := by
  rw [List.eq_nil_iff_forall_not_mem]
  intro x hx
  obtain ⟨hmem, hnew⟩ := mem_firstsFrom_iff.1 hx
  rw [hids x hmem] at hnew
  cases hnew

/-- What follows a list without new nodes does not count if it repeats the list. -/
theorem firstsFrom_append {seen : NodeSet} {ids rest : List NodeId} (hids : ids.Nodup)
    (hnew : ∀ x ∈ ids, seen.contains x = false)
    (hrest : ∀ x ∈ rest, x ∈ ids ∨ seen.contains x = true) :
    firstsFrom seen (ids ++ rest) = ids := by
  induction ids generalizing seen with
  | nil => exact firstsFrom_eq_nil fun x hx => (hrest x hx).resolve_left List.not_mem_nil
  | cons y ids ih =>
    obtain ⟨hy, hids⟩ := List.nodup_cons.1 hids
    obtain ⟨hnewy, hnew⟩ := List.forall_mem_cons.1 hnew
    rw [List.cons_append, firstsFrom, if_neg (by rw [hnewy]; decide), ih hids]
    · intro x hx
      have hne : y ≠ x := by
        rintro rfl
        exact hy hx
      rw [Std.ExtTreeSet.contains_insert, hnew x hx]
      simpa using hne
    · intro x hx
      rw [Std.ExtTreeSet.contains_insert]
      rcases hrest x hx with hmem | hseen
      · rcases List.mem_cons.1 hmem with rfl | hmem
        · right
          simp
        · exact Or.inl hmem
      · right
        rw [hseen, Bool.or_true]

/-- **A list that is repeated comes out once.** -/
theorem firstsFrom_flatten_replicate {ids : List NodeId} (hids : ids.Nodup) (n : Nat) :
    firstsFrom ∅ (List.replicate (n + 1) ids).flatten = ids := by
  rw [List.replicate_succ, List.flatten_cons]
  refine firstsFrom_append hids (fun _ _ => Std.ExtTreeSet.contains_empty) ?_
  intro x hx
  obtain ⟨l, hl, hx⟩ := List.mem_flatten.1 hx
  rw [List.eq_of_mem_replicate hl] at hx
  exact Or.inl hx

/-! ### The only ends of a pair -/

/-- A pair has one opening end in the document, at the first place, and one closing end, at the
second. -/
structure IsSinglePair (t : Tree) (pair : UInt32) (i j : Nat) : Prop where
  opening_iff : ∀ k, t.bracketAt? t.tokens k = some (.opening pair) ↔ k = i
  closing_iff : ∀ k, t.bracketAt? t.tokens k = some (.closing pair) ↔ k = j

theorem lt_length_of_bracketAt? {ids : List NodeId} {k : Nat} {b : Bracket}
    (h : t.bracketAt? ids k = some b) : k < ids.length := by
  obtain ⟨x, hx, _⟩ := Option.bind_eq_some_iff.1 h
  exact (List.getElem?_eq_some_iff.1 hx).1

/-- It is enough to look at the places that the document has. -/
instance (t : Tree) (pair : UInt32) (i j : Nat) : Decidable (t.IsSinglePair pair i j) :=
  decidable_of_iff
    (t.bracketAt? t.tokens i = some (.opening pair) ∧
      t.bracketAt? t.tokens j = some (.closing pair) ∧
      ∀ k < t.tokens.length,
        (t.bracketAt? t.tokens k = some (.opening pair) → k = i) ∧
          (t.bracketAt? t.tokens k = some (.closing pair) → k = j)) <| by
    constructor
    · rintro ⟨hi, hj, hk⟩
      exact ⟨fun k => ⟨fun h => (hk k (lt_length_of_bracketAt? h)).1 h, fun h => h ▸ hi⟩,
        fun k => ⟨fun h => (hk k (lt_length_of_bracketAt? h)).2 h, fun h => h ▸ hj⟩⟩
    · intro h
      exact ⟨(h.opening_iff i).2 rfl, (h.closing_iff j).2 rfl,
        fun k _ => ⟨(h.opening_iff k).1, (h.closing_iff k).1⟩⟩

namespace IsSinglePair

/-- **Every span of the pair is the slice between its ends**, which come in this order. -/
theorem eq_slice (h : t.IsSinglePair pair i j) {span : List NodeId} (hspan : t.IsSpan pair span)
    (hsegment : span <:+: t.tokens) : i < j ∧ span = (t.tokens.take (j + 1)).drop i := by
  obtain ⟨before, after, htokens⟩ := hsegment
  have hpos : 0 < span.length := by
    obtain ⟨first, tail, rfl, _⟩ := hspan
    exact Nat.succ_pos _
  have hinterval : t.IsInterval pair t.tokens before.length (before.length + span.length - 1) :=
    isInterval_iff.2 ⟨before, span, after, hspan, htokens.symm, rfl, by omega⟩
  have hi : before.length = i := (h.opening_iff _).1 hinterval.opening
  have hj : before.length + span.length - 1 = j := (h.closing_iff _).1 hinterval.closing
  have hlt := hinterval.lt
  refine ⟨by omega, ?_⟩
  rw [← htokens, List.take_left' (by rw [List.length_append]; omega), List.drop_left' hi]

theorem isInterval (h : t.IsSinglePair pair i j) (hlt : i < j) :
    t.IsInterval pair t.tokens i j := by
  refine ⟨hlt, (h.opening_iff i).2 rfl, (h.closing_iff j).2 rfl, ?_⟩
  intro k hik hkj
  rw [Ne, h.opening_iff, Ne, h.closing_iff]
  omega

/-- The slice is a span, if the opening end comes first. -/
theorem exists_span (h : t.IsSinglePair pair i j) (hlt : i < j) :
    ∃ span, t.IsSpan pair span ∧ span <:+: t.tokens := by
  obtain ⟨before, span, after, hspan, htokens, _⟩ := isInterval_iff.1 (h.isInterval hlt)
  exact ⟨span, hspan, before, after, htokens.symm⟩

/-- What the scans of some groups find: the slice, so many times. -/
theorem exists_spansBelow_eq (h : t.IsSinglePair pair i j) (hwf : t.WellFormed)
    (groups : List NodeId) :
    ∃ n, groups.flatMap (t.spansBelow pair) =
      (List.replicate n ((t.tokens.take (j + 1)).drop i)).flatten := by
  have hspans : groups.flatMap (t.spansBelow pair) =
      (groups.flatMap fun group => t.spansFrom pair none (t.flatten group)).flatten := by
    show groups.flatMap (fun group => (t.spansFrom pair none (t.flatten group)).flatten) = _
    simp only [List.flatten_eq_flatMap, List.flatMap_assoc]
  refine ⟨_, hspans.trans (congrArg List.flatten (List.eq_replicate_of_mem ?_))⟩
  intro span hmem
  obtain ⟨group, _, hspan⟩ := List.mem_flatMap.1 hmem
  obtain ⟨hspan, hsegment⟩ := mem_spansFrom_none_iff.1 hspan
  exact (h.eq_slice hspan (hsegment.trans (hwf.flatten_isInfix_tokens group))).2

/-- **The range that is looked for from either end.** -/
theorem bracketRange_eq (h : t.IsSinglePair pair i j) (hwf : t.WellFormed) {id : NodeId}
    {b : Bracket} (hb : t.bracket? id = some b) (hpair : b.pair = pair) :
    t.bracketRange id = if i < j then (t.tokens.take (j + 1)).drop i else [] := by
  obtain ⟨n, hn⟩ := h.exists_spansBelow_eq hwf (t.ancestors id)
  have hrange : t.bracketRange id =
      firstsFrom ∅ (List.replicate n ((t.tokens.take (j + 1)).drop i)).flatten := by
    rw [← hn, ← hpair, bracketRange, hb]
  have hmem : ∀ {x}, x ∈ t.bracketRange id ↔
      ∃ span, t.IsSpan pair span ∧ span <:+: t.tokens ∧ x ∈ span := by
    intro x
    rw [hwf.mem_bracketRange_iff hb, hpair]
    exact mem_spansBelow_iff
  split
  · next hlt =>
    have hnodup : ((t.tokens.take (j + 1)).drop i).Nodup :=
      hwf.nodup_tokens.sublist ((List.drop_sublist _ _).trans (List.take_sublist _ _))
    obtain ⟨span, hspan, hsegment⟩ := h.exists_span hlt
    cases n with
    | zero =>
      -- The scan of the root finds the slice, so some scan finds something.
      obtain ⟨first, tail, rfl, hfirst⟩ := hspan
      have hx : first ∈ t.bracketRange id :=
        hmem.2 ⟨_, ⟨first, tail, rfl, hfirst⟩, hsegment, List.mem_cons_self⟩
      rw [hrange] at hx
      cases hx
    | succ n => rw [hrange, firstsFrom_flatten_replicate hnodup]
  · next hnot =>
    rw [List.eq_nil_iff_forall_not_mem]
    intro x hx
    obtain ⟨span, hspan, hsegment, _⟩ := hmem.1 hx
    exact hnot (h.eq_slice hspan hsegment).1

end IsSinglePair

/-! ### Two documents -/

/-- A call in a group and its closing bracket in another one, with an opening bracket of a second
pair in between. The third pair closes before it opens. -/
def singlePairs : Tree :=
  edited <| List.map Edit.add [
    .token 0 (.plain { text := ")", bracket := some (.closing 3) }),
    .group 0,
    .token 2 (.plain { text := "f", address := some 16 }),
    .group 2,
    .token 4 (.plain { text := "(", bracket := some (.opening 1) }),
    .token 2 (.plain { text := "(", bracket := some (.opening 2) }),
    .group 0,
    .token 7 (.plain { text := "x", varnode := some 3 }),
    .token 7 (.plain { text := ")", bracket := some (.closing 1) }),
    .token 0 (.plain { text := "(", bracket := some (.opening 3) })]

end Tree

namespace Highlights

variable {h : Highlights} {pair : UInt32} {i j : Nat} {id : NodeId}

/-! ### The contract for single pairs -/

/-- **The range of a single pair is the slice of the document between its ends**, from whichever end
it is asked for and in whatever groups the two lie. It is told in document order, its tokens take
the color and come into the set, and nothing else changes of the tree and of the set. If the closing
end comes first, nothing is told and nothing changes. -/
theorem highlightBracket_colors_slice (htree : h.tree.Reachable)
    (hpair : h.tree.IsSinglePair pair i j)
    (hid : h.tree.tokens[i]? = some id ∨ h.tree.tokens[j]? = some id) (c : Color) :
    let g := (h.highlightBracket id c).1
    let range := (h.highlightBracket id c).2
    (i < j →
      range = (h.tree.tokens.take (j + 1)).drop i ∧
      (∀ x ∈ range, g.isHighlighted x = true ∧
        ∃ tok, h.tree.token? x = some tok ∧
          g.tree.token? x = some { tok with highlight := some c }) ∧
      (∀ x, x ∉ range → h.SameAt g x) ∧
      g.tree.cleared = h.tree.cleared ∧ g.palette = h.palette) ∧
    (j < i → range = [] ∧ g = h) := by
  have hwf : h.tree.WellFormed := htree.wellFormed
  have hrange : h.tree.bracketRange id =
      if i < j then (h.tree.tokens.take (j + 1)).drop i else [] := by
    rcases hid with hid | hid
    · have hopening := (hpair.opening_iff i).2 rfl
      rw [Tree.bracketAt?, hid] at hopening
      exact hpair.bracketRange_eq hwf hopening rfl
    · have hclosing := (hpair.closing_iff j).2 rfl
      rw [Tree.bracketAt?, hid] at hclosing
      exact hpair.bracketRange_eq hwf hclosing rfl
  intro g range
  constructor
  · intro hlt
    have hslice : range = (h.tree.tokens.take (j + 1)).drop i := hrange.trans (if_pos hlt)
    have htokens : ∀ x ∈ range, (h.tree.token? x).isSome = true := by
      intro x hx
      rw [hslice] at hx
      exact hwf.mem_tokens_iff.1 (List.mem_of_mem_take (List.mem_of_mem_drop hx))
    refine ⟨hslice, ?_, ?_, (changes_markAll h range c).cleared_eq, palette_markAll h range c⟩
    · intro x hx
      obtain ⟨tok, htok⟩ := Option.isSome_iff_exists.1 (htokens x hx)
      obtain ⟨hset, hcolor⟩ := markAll_of_mem htok hx c
      exact ⟨hset, tok, htok, hcolor⟩
    · intro x hx
      exact sameAt_markAll hx c
  · intro hlt
    have hnil : range = [] := hrange.trans (if_neg (Nat.lt_asymm hlt))
    refine ⟨hnil, ?_⟩
    show h.markAll range c = h
    rw [hnil]
    rfl

/-- From either end of the first pair the variable and the bracket of the second pair are in the
range; the third pair has none. -/
theorem highlightBracket_colors_slice_sample :
    let h := start Tree.singlePairs .default
    let c := Color.rgb 200 0 0
    (h.highlightBracket 5 c).2 = [5, 6, 8, 9] ∧ (h.highlightBracket 9 c).2 = [5, 6, 8, 9] ∧
      (h.highlightBracket 9 c).1.isHighlighted 8 = true ∧
      (h.highlightBracket 9 c).1.isHighlighted 3 = false ∧ (h.highlightBracket 1 c).1 = h := by
  intro h c
  have htree : h.tree.Reachable := ⟨_, rfl⟩
  have hfirst : h.tree.IsSinglePair 1 2 5 := by decide +kernel
  have hthird : h.tree.IsSinglePair 3 6 0 := by decide +kernel
  have hplaces : h.tree.tokens[2]? = some 5 ∧ h.tree.tokens[5]? = some 9 ∧
      h.tree.tokens[0]? = some 1 := by decide +kernel
  have hslice : (h.tree.tokens.take 6).drop 2 = [5, 6, 8, 9] := by decide +kernel
  obtain ⟨hopening, _⟩ := highlightBracket_colors_slice htree hfirst (Or.inl hplaces.1) c
  obtain ⟨hclosing, _⟩ := highlightBracket_colors_slice htree hfirst (Or.inr hplaces.2.1) c
  obtain ⟨_, hnothing⟩ := highlightBracket_colors_slice htree hthird (Or.inr hplaces.2.2) c
  obtain ⟨hrange, _⟩ := hopening (by decide)
  obtain ⟨hrange', hin, hout, _⟩ := hclosing (by decide)
  rw [hslice] at hrange hrange'
  rw [hrange'] at hin hout
  exact ⟨hrange, hrange', (hin 8 (by decide)).1, (hout 3 (by decide)).2.trans (by decide +kernel),
    (hnothing (by decide)).2⟩

end Highlights

end TokenHighlight
