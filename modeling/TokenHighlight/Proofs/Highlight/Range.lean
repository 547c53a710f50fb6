import TokenHighlight.Proofs.Highlight.Change
import TokenHighlight.Proofs.Highlight.Span
import TokenHighlight.Proofs.Tree.DocumentOrder

/-!
# Bracket ranges in document order

The range of a bracket is looked for in every group around it, one scan for each. All of them look
at the same document: the tokens below a group are a segment of it, and the root is one of the
groups. A span that a scan finds lies in the segment with both its ends and all between them, so the
scan of the root finds it again. What the scans find together is therefore what the scan of the root
finds, and it depends on the pair alone, not on the bracket it was asked for.

## Main results

* `Tree.WellFormed.mem_bracketRange_iff` — the scans of all groups find what the scan of the root
  finds
* `Highlights.highlightBracket_covers_intervals` — the range is the union of the intervals of the
  pair, whichever end is asked for
-/

namespace TokenHighlight

namespace Tree

variable {t : Tree} {pair : UInt32}

/-! ### Each node once -/

theorem mem_firstsFrom_iff {seen : NodeSet} {ids : List NodeId} {id : NodeId} :
    id ∈ firstsFrom seen ids ↔ id ∈ ids ∧ seen.contains id = false := by
  induction ids generalizing seen with
  | nil => simp [firstsFrom]
  | cons x rest ih =>
    rw [firstsFrom]
    split
    · next hx =>
      rw [ih, List.mem_cons]
      refine and_congr_left fun hid => (or_iff_right ?_).symm
      rintro rfl
      rw [hx] at hid
      cases hid
    · next hx =>
      rw [List.mem_cons, List.mem_cons, ih, Std.ExtTreeSet.contains_insert]
      by_cases hid : id = x
      · subst hid
        rw [Bool.not_eq_true] at hx
        simp [hx]
      · have hcmp : (compare x id == .eq) = false := by simpa using Ne.symm hid
        simp [hid, hcmp]

theorem nodup_firstsFrom (seen : NodeSet) (ids : List NodeId) : (firstsFrom seen ids).Nodup := by
  induction ids generalizing seen with
  | nil => exact List.nodup_nil
  | cons x rest ih =>
    rw [firstsFrom]
    split
    · exact ih seen
    · refine List.nodup_cons.2 ⟨fun hx => ?_, ih _⟩
      have hseen := (mem_firstsFrom_iff.1 hx).2
      rw [Std.ExtTreeSet.contains_insert_self] at hseen
      cases hseen

theorem nodup_bracketRange (t : Tree) (id : NodeId) : (t.bracketRange id).Nodup := by
  rw [bracketRange]
  split
  · exact nodup_firstsFrom _ _
  · exact List.nodup_nil

theorem mem_spansBelow_iff {group id : NodeId} :
    id ∈ t.spansBelow pair group ↔
      ∃ span, t.IsSpan pair span ∧ span <:+: t.flatten group ∧ id ∈ span :=
  mem_flatten_spansFrom_iff

namespace WellFormed

/-- The root is among the groups around a bracket. -/
theorem root_mem_ancestors_of_bracket? (h : t.WellFormed) {id : NodeId} {b : Bracket}
    (hb : t.bracket? id = some b) : root ∈ t.ancestors id := by
  obtain ⟨tok, htok, _⟩ := Option.bind_eq_some_iff.1 hb
  have hmem : id ∈ t.tokens := h.mem_tokens_iff.2 (by rw [htok]; rfl)
  rcases List.mem_cons.1 (h.mem_flatten_iff.1 hmem).2 with rfl | hroot
  · rw [token?_of_isGroup h.isGroup_root] at htok
    cases htok
  · exact hroot

/-- **The scans of all groups find what the scan of the root finds.** A span below a group is a
segment of the document, with both its ends. -/
theorem mem_bracketRange_iff (h : t.WellFormed) {id x : NodeId} {b : Bracket}
    (hb : t.bracket? id = some b) : x ∈ t.bracketRange id ↔ x ∈ t.spansBelow b.pair root := by
  rw [bracketRange]
  rw [hb]
  dsimp only
  rw [mem_firstsFrom_iff, and_iff_left Std.ExtTreeSet.contains_empty, List.mem_flatMap]
  constructor
  · rintro ⟨group, _, hx⟩
    obtain ⟨span, hspan, hinfix, hx⟩ := mem_spansBelow_iff.1 hx
    exact mem_spansBelow_iff.2 ⟨span, hspan, hinfix.trans (h.flatten_isInfix_tokens group), hx⟩
  · exact fun hx => ⟨root, h.root_mem_ancestors_of_bracket? hb, hx⟩

end WellFormed

end Tree

namespace Highlights

variable {h : Highlights}

/-- **The range of a bracket is the union of the intervals of its pair.** What is told is each token
once that lies, in document order, between an opening end and the next closing one, the ends
included. These tokens come into the set and have the color, and all others stay as they are. The
scans of all groups around the bracket mark what one scan of the root would, and it makes no
difference which bracket of the pair is asked for. -/
theorem highlightBracket_covers_intervals (htree : h.tree.Reachable) {id : NodeId} {b : Bracket}
    (hb : h.tree.bracket? id = some b) (c : Color) :
    (∀ x, x ∈ (h.highlightBracket id c).2 ↔
      ∃ i j k, h.tree.IsInterval b.pair h.tree.tokens i j ∧ i ≤ k ∧ k ≤ j ∧
        h.tree.tokens[k]? = some x) ∧
    (h.highlightBracket id c).2.Nodup ∧
    (∀ x ∈ (h.highlightBracket id c).2, ∃ tok, h.tree.token? x = some tok ∧
      (h.highlightBracket id c).1.isHighlighted x = true ∧
      (h.highlightBracket id c).1.tree.token? x = some { tok with highlight := some c }) ∧
    (∀ x ∉ (h.highlightBracket id c).2, h.SameAt (h.highlightBracket id c).1 x) ∧
    (h.highlightBracket id c).1 = h.markAll (h.tree.spansBelow b.pair Tree.root) c ∧
    ∀ id' b', h.tree.bracket? id' = some b' → b'.pair = b.pair →
      (h.highlightBracket id' c).1 = (h.highlightBracket id c).1 := by
  have hroot : ∀ {id b}, h.tree.bracket? id = some b → ∀ x,
      x ∈ h.tree.bracketRange id ↔ x ∈ h.tree.spansBelow b.pair Tree.root :=
    fun hb _ => htree.wellFormed.mem_bracketRange_iff hb
  have hrange : ∀ x, x ∈ h.tree.bracketRange id ↔
      ∃ i j k, h.tree.IsInterval b.pair h.tree.tokens i j ∧ i ≤ k ∧ k ≤ j ∧
        h.tree.tokens[k]? = some x := by
    intro x
    rw [← Tree.exists_span_iff]
    exact (hroot hb x).trans Tree.mem_spansBelow_iff
  refine ⟨hrange, h.tree.nodup_bracketRange id, fun x hx => ?_, fun x hx => sameAt_markAll hx c,
    markAll_congr (hroot hb) c, fun id' b' hb' hpair => markAll_congr (fun x => ?_) c⟩
  · obtain ⟨_, _, k, _, _, _, hk⟩ := (hrange x).1 hx
    have htoken : (h.tree.token? x).isSome = true :=
      htree.wellFormed.mem_tokens_iff.1 (List.mem_of_getElem? hk)
    obtain ⟨tok, htok⟩ := Option.isSome_iff_exists.1 htoken
    exact ⟨tok, htok, markAll_of_mem htok hx c⟩
  · rw [hroot hb', hroot hb, hpair]

/-- The bracket that closes the first call and the one that opens the second in a block have the
same range, with the variable between the brackets of the first call. -/
theorem highlightBracket_covers_intervals_sample :
    let h := start Tree.sample .default
    let c := Color.rgb 200 0 0
    4 ∈ (h.highlightBracket 9 c).2 ∧ (h.highlightBracket 9 c).1.isHighlighted 4 = true ∧
      (h.highlightBracket 5 c).1 = (h.highlightBracket 9 c).1 := by
  intro h c
  have hopening : h.tree.bracket? 9 = some (.opening 7) := by decide +kernel
  have hclosing : h.tree.bracket? 5 = some (.closing 7) := by decide +kernel
  obtain ⟨hmem, _, hshown, _, _, hpair⟩ :=
    highlightBracket_covers_intervals Tree.reachable_sample hopening c
  have hinterval : h.tree.IsInterval 7 h.tree.tokens 1 3 := by
    refine ⟨by decide, by decide +kernel, by decide +kernel, fun k hik hkj => ?_⟩
    obtain rfl : k = 2 := by omega
    decide +kernel
  have hvariable : 4 ∈ (h.highlightBracket 9 c).2 :=
    (hmem 4).2 ⟨1, 3, 2, hinterval, by decide, by decide, by decide +kernel⟩
  obtain ⟨_, _, hhighlighted, _⟩ := hshown 4 hvariable
  exact ⟨hvariable, hhighlighted, hpair 5 _ hclosing rfl⟩

end Highlights

end TokenHighlight
