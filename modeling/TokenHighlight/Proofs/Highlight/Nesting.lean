import TokenHighlight.Proofs.Highlight.SinglePair

/-!
# Ranges where nesting is broken

A pair is nested as it should be if it has one opening end in the document and one closing end
behind it. Where it is not, one would want the range of its brackets to be empty. That is so if no
opening end of the pair stands before a closing one; a bracket without a partner is of this kind.

It is not so in general. A pair may have further ends, and then the scan still finds the stretches
between an opening end and the next closing one. An opening end that is opened again before it is
closed lies in none of them, so that a range that is not empty can be without the very bracket it
was asked for. What holds in every document is that the range is empty just if nothing in it closes,
and that it has the bracket just if that is an end of some stretch.

## Main definitions

* `Tree.OpensBeforeClosing` — some opening end of a pair stands before some closing one
* `Tree.IsNested` — a pair is nested as it should be

## Main results

* `Tree.exists_isInterval_iff` — what opens and is closed later has an interval
* `Tree.WellFormed.bracketRange_eq_nil_iff` — when a range is empty
* `Tree.WellFormed.mem_own_bracketRange_iff` — when a bracket lies in its range
* `Highlights.highlightBracket_of_any_nesting` — the whole contract, whatever the nesting is
-/

namespace TokenHighlight

namespace Tree

variable {t : Tree} {pair : UInt32}

/-! ### Ends in any order -/

/-- An opening end of a pair stands before a closing one, with whatever between them. -/
def OpensBeforeClosing (t : Tree) (pair : UInt32) : Prop :=
  ∃ i j, i < j ∧ t.bracketAt? t.tokens i = some (.opening pair) ∧
    t.bracketAt? t.tokens j = some (.closing pair)

/-- It is enough to look at the places that the document has. -/
instance (t : Tree) (pair : UInt32) : Decidable (t.OpensBeforeClosing pair) :=
  decidable_of_iff
    (∃ j < t.tokens.length, ∃ i < j, t.bracketAt? t.tokens i = some (.opening pair) ∧
      t.bracketAt? t.tokens j = some (.closing pair)) <| by
    constructor
    · rintro ⟨j, _, i, hlt, hends⟩
      exact ⟨i, j, hlt, hends⟩
    · rintro ⟨i, j, hlt, hends⟩
      exact ⟨j, lt_length_of_bracketAt? hends.2, i, hlt, hends⟩

/-- A pair has one opening end and one closing end, in this order. -/
def IsNested (t : Tree) (pair : UInt32) : Prop :=
  ∃ i j, i < j ∧ t.IsSinglePair pair i j

/-- Between an opening end and a later closing one there is an interval: an end in between is either
the beginning of a shorter stretch or the end of one. -/
theorem exists_isInterval_of_lt {ids : List NodeId} {i j : Nat} (hlt : i < j)
    (hopening : t.bracketAt? ids i = some (.opening pair))
    (hclosing : t.bracketAt? ids j = some (.closing pair)) :
    ∃ i' j', t.IsInterval pair ids i' j' := by
  induction hn : j - i using Nat.strongRecOn generalizing i j with
  | ind n ih =>
    by_cases hend : ∃ k, i < k ∧ k < j ∧
        (t.bracketAt? ids k = some (.opening pair) ∨ t.bracketAt? ids k = some (.closing pair))
    · obtain ⟨k, hik, hkj, hk | hk⟩ := hend
      · exact ih (j - k) (by omega) hkj hk hclosing rfl
      · exact ih (k - i) (by omega) hik hopening hk rfl
    · refine ⟨i, j, hlt, hopening, hclosing, fun k hik hkj => ⟨fun hk => ?_, fun hk => ?_⟩⟩
      · exact hend ⟨k, hik, hkj, Or.inl hk⟩
      · exact hend ⟨k, hik, hkj, Or.inr hk⟩

theorem exists_isInterval_iff :
    (∃ i j, t.IsInterval pair t.tokens i j) ↔ t.OpensBeforeClosing pair := by
  constructor
  · rintro ⟨i, j, h⟩
    exact ⟨i, j, h.lt, h.opening, h.closing⟩
  · rintro ⟨i, j, hlt, hopening, hclosing⟩
    exact exists_isInterval_of_lt hlt hopening hclosing

namespace WellFormed

variable {id x : NodeId} {b : Bracket}

theorem mem_bracketRange_iff_interval (h : t.WellFormed) (hb : t.bracket? id = some b) :
    x ∈ t.bracketRange id ↔
      ∃ i j k, t.IsInterval b.pair t.tokens i j ∧ i ≤ k ∧ k ≤ j ∧ t.tokens[k]? = some x := by
  rw [h.mem_bracketRange_iff hb, mem_spansBelow_iff]
  exact exists_span_iff

/-- **A range is empty just if nothing in the document is closed** that was opened before. -/
theorem bracketRange_eq_nil_iff (h : t.WellFormed) (hb : t.bracket? id = some b) :
    t.bracketRange id = [] ↔ ¬t.OpensBeforeClosing b.pair := by
  rw [← exists_isInterval_iff, List.eq_nil_iff_forall_not_mem]
  constructor
  · rintro hnone ⟨i, j, hinterval⟩
    obtain ⟨x, hx, _⟩ := Option.bind_eq_some_iff.1 hinterval.opening
    exact hnone x ((h.mem_bracketRange_iff_interval hb).2
      ⟨i, j, i, hinterval, Nat.le_refl i, Nat.le_of_lt hinterval.lt, hx⟩)
  · intro hnone x hx
    obtain ⟨i, j, _, hinterval, _⟩ := (h.mem_bracketRange_iff_interval hb).1 hx
    exact hnone ⟨i, j, hinterval⟩

/-- **A bracket lies in its range just if it is an end of an interval**, since no end of the pair
lies inside of one. -/
theorem mem_own_bracketRange_iff (h : t.WellFormed) (hb : t.bracket? id = some b) :
    id ∈ t.bracketRange id ↔
      ∃ i j, t.IsInterval b.pair t.tokens i j ∧
        (t.tokens[i]? = some id ∨ t.tokens[j]? = some id) := by
  rw [h.mem_bracketRange_iff_interval hb]
  constructor
  · rintro ⟨i, j, k, hinterval, hik, hkj, hk⟩
    refine ⟨i, j, hinterval, ?_⟩
    have hbracket : t.bracketAt? t.tokens k = some b := by
      rw [bracketAt?, hk]
      exact hb
    rcases Nat.eq_or_lt_of_le hik with rfl | hik
    · exact Or.inl hk
    rcases Nat.eq_or_lt_of_le hkj with rfl | hkj
    · exact Or.inr hk
    · obtain ⟨hopening, hclosing⟩ := hinterval.between k hik hkj
      rw [hbracket] at hopening hclosing
      cases b with
      | opening p => exact absurd rfl hopening
      | closing p => exact absurd rfl hclosing
  · rintro ⟨i, j, hinterval, hi | hj⟩
    · exact ⟨i, j, i, hinterval, Nat.le_refl i, Nat.le_of_lt hinterval.lt, hi⟩
    · exact ⟨i, j, j, hinterval, Nat.le_of_lt hinterval.lt, Nat.le_refl j, hj⟩

/-- A bracket of a pair that is nested as it should be lies in its range. -/
theorem mem_own_bracketRange_of_isNested (h : t.WellFormed) (hb : t.bracket? id = some b)
    (hnested : t.IsNested b.pair) : id ∈ t.bracketRange id := by
  obtain ⟨i, j, hlt, hpair⟩ := hnested
  obtain ⟨tok, htok, _⟩ := Option.bind_eq_some_iff.1 hb
  obtain ⟨k, hk⟩ := List.mem_iff_getElem?.1 (h.mem_tokens_iff.2 (by rw [htok]; rfl))
  have hbracket : t.bracketAt? t.tokens k = some b := by
    rw [bracketAt?, hk]
    exact hb
  refine (h.mem_own_bracketRange_iff hb).2 ⟨i, j, hpair.isInterval hlt, ?_⟩
  cases b with
  | opening p =>
    obtain rfl : k = i := (hpair.opening_iff k).1 hbracket
    exact Or.inl hk
  | closing p =>
    obtain rfl : k = j := (hpair.closing_iff k).1 hbracket
    exact Or.inr hk

end WellFormed

/-! ### A document -/

/-- A pair that is opened twice and closed once, and another one that is closed before it is
opened. -/
def reopened : Tree :=
  edited <| List.map Edit.add [
    .token 0 (.plain { text := "(", bracket := some (.opening 1) }),
    .group 0,
    .token 2 (.plain { text := "(", bracket := some (.opening 1) }),
    .token 2 (.plain { text := "x", varnode := some 3 }),
    .token 0 (.plain { text := ")", bracket := some (.closing 1) }),
    .token 0 (.plain { text := ")", bracket := some (.closing 2) }),
    .token 2 (.plain { text := ";" }),
    .token 0 (.plain { text := "(", bracket := some (.opening 2) })]

end Tree

namespace Highlights

variable {h : Highlights} {id : NodeId} {b : Bracket}

/-! ### The contract for any nesting -/

/-- **What the range of a bracket is like, whatever the nesting is.** It is empty just if no opening
end of the pair stands before a closing one, and then nothing changes. It has the bracket that it
was asked for just if that is an end of an interval, which it is if the pair is nested as it should
be. So if broken nesting is to leave the range empty, the pair must not be closed anywhere behind an
opening end. -/
theorem highlightBracket_of_any_nesting (htree : h.tree.Reachable)
    (hb : h.tree.bracket? id = some b) (c : Color) :
    ((h.highlightBracket id c).2 = [] ↔ ¬h.tree.OpensBeforeClosing b.pair) ∧
    ((h.highlightBracket id c).2 = [] → (h.highlightBracket id c).1 = h) ∧
    (id ∈ (h.highlightBracket id c).2 ↔
      ∃ i j, h.tree.IsInterval b.pair h.tree.tokens i j ∧
        (h.tree.tokens[i]? = some id ∨ h.tree.tokens[j]? = some id)) ∧
    (h.tree.IsNested b.pair → id ∈ (h.highlightBracket id c).2) ∧
    ((¬h.tree.IsNested b.pair → (h.highlightBracket id c).2 = []) ↔
      h.tree.IsNested b.pair ∨ ¬h.tree.OpensBeforeClosing b.pair) := by
  have hwf : h.tree.WellFormed := htree.wellFormed
  have hnil : (h.highlightBracket id c).2 = [] ↔ ¬h.tree.OpensBeforeClosing b.pair :=
    hwf.bracketRange_eq_nil_iff hb
  refine ⟨hnil, fun hrange => ?_, hwf.mem_own_bracketRange_iff hb,
    hwf.mem_own_bracketRange_of_isNested hb, ?_⟩
  · show h.markAll (h.highlightBracket id c).2 c = h
    rw [hrange]
    rfl
  · rw [hnil, or_iff_not_imp_left]

/-- A pair that is opened twice has a range, with its second opening end in it. A pair that is
closed before it is opened has none, from either end. -/
theorem highlightBracket_of_any_nesting_sample :
    let h := start Tree.reopened .default
    let c := Color.rgb 200 0 0
    (h.highlightBracket 1 c).2 ≠ [] ∧ 3 ∈ (h.highlightBracket 3 c).2 ∧
      (h.highlightBracket 6 c).1 = h ∧ (h.highlightBracket 8 c).1 = h := by
  intro h c
  have htree : h.tree.Reachable := ⟨_, rfl⟩
  have hinterval : h.tree.IsInterval 1 h.tree.tokens 1 4 := by
    refine ⟨by decide, by decide +kernel, by decide +kernel, fun k hik hkj => ?_⟩
    obtain rfl | rfl : k = 2 ∨ k = 3 := by omega
    · decide +kernel
    · decide +kernel
  have hbrackets : h.tree.bracket? 1 = some (.opening 1) ∧ h.tree.bracket? 3 = some (.opening 1) ∧
      h.tree.bracket? 6 = some (.closing 2) ∧ h.tree.bracket? 8 = some (.opening 2) := by
    decide +kernel
  obtain ⟨hbracket₁, hbracket₃, hbracket₆, hbracket₈⟩ := hbrackets
  obtain ⟨hnil₁, _⟩ := highlightBracket_of_any_nesting htree hbracket₁ c
  obtain ⟨_, _, hmem₃, _⟩ := highlightBracket_of_any_nesting htree hbracket₃ c
  obtain ⟨hnil₆, hsame₆, _⟩ := highlightBracket_of_any_nesting htree hbracket₆ c
  obtain ⟨hnil₈, hsame₈, _⟩ := highlightBracket_of_any_nesting htree hbracket₈ c
  exact ⟨fun hnil => hnil₁.1 hnil (by decide +kernel),
    hmem₃.2 ⟨1, 4, hinterval, Or.inl (by decide +kernel)⟩, hsame₆ (hnil₆.2 (by decide +kernel)),
    hsame₈ (hnil₈.2 (by decide +kernel))⟩

/-- **Broken nesting is not always found out.** A pair that is opened twice is not nested as it
should be, and still the range of its first end has tokens, though not that end. -/
theorem highlightBracket_reopened :
    let h := start Tree.reopened .default
    h.tree.bracket? 1 = some (.opening 1) ∧ ¬h.tree.IsNested 1 ∧
      (h.highlightBracket 1 (.rgb 200 0 0)).2 = [3, 4, 7, 5] ∧
      (h.highlightBracket 1 (.rgb 200 0 0)).1.isHighlighted 3 = true := by
  intro h
  refine ⟨by decide +kernel, ?_, by decide +kernel, by decide +kernel⟩
  rintro ⟨i, j, _, hpair⟩
  have hfirst : 0 = i := (hpair.opening_iff 0).1 (by decide +kernel)
  have hsecond : 1 = i := (hpair.opening_iff 1).1 (by decide +kernel)
  omega

end Highlights

end TokenHighlight
