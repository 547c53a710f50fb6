import Mathlib.Data.List.Infix
import TokenHighlight.Highlight.Bracket

/-!
# Spans of a bracket pair

A scan for a bracket pair goes through a list of nodes with a span that may be open. What it finds
is described in two ways. As segments of the list, since segments carry over from one list to
another around it; and as intervals of places, since that is how one would say where brackets match:
an opening end, a closing one behind it, and no end of the pair between them.

## Main definitions

* `Tree.IsTail`, `Tree.IsSpan` — from an opening end to the next closing one
* `Tree.IsInterval` — the places of two ends with none between them

## Main results

* `Tree.mem_spansFrom_iff` — the spans that a scan finds
* `Tree.exists_tail_iff` — tails by places
* `Tree.isInterval_iff` — intervals are the places of spans
* `Tree.exists_span_iff` — being in a span, by places
-/

namespace TokenHighlight

namespace Tree

variable {t : Tree} {pair : UInt32}

/-! ### Spans -/

/-- A node that carries neither end of a pair. -/
def IsInner (t : Tree) (pair : UInt32) (id : NodeId) : Prop :=
  t.bracket? id ≠ some (.opening pair) ∧ t.bracket? id ≠ some (.closing pair)

/-- Nodes that carry no end of a pair but for the last, which carries the closing one. -/
def IsTail (t : Tree) (pair : UInt32) (ids : List NodeId) : Prop :=
  ∃ inner last, ids = inner ++ [last] ∧ t.bracket? last = some (.closing pair) ∧
    ∀ id ∈ inner, t.IsInner pair id

/-- An opening end with the nodes behind it up to the closing one. -/
def IsSpan (t : Tree) (pair : UInt32) (ids : List NodeId) : Prop :=
  ∃ first tail, ids = first :: tail ∧ t.bracket? first = some (.opening pair) ∧ t.IsTail pair tail

theorem not_isTail_nil : ¬t.IsTail pair [] := by
  rintro ⟨inner, last, h, _⟩
  simp at h

theorem isTail_cons_iff {id : NodeId} {ids : List NodeId} :
    t.IsTail pair (id :: ids) ↔
      (t.bracket? id = some (.closing pair) ∧ ids = []) ∨
        (t.IsInner pair id ∧ t.IsTail pair ids) := by
  constructor
  · rintro ⟨inner, last, h, hlast, hinner⟩
    cases inner with
    | nil =>
      obtain ⟨rfl, rfl⟩ := List.cons.inj h
      exact Or.inl ⟨hlast, rfl⟩
    | cons x inner =>
      obtain ⟨rfl, rfl⟩ := List.cons.inj h
      exact Or.inr ⟨hinner id List.mem_cons_self, inner, last, rfl, hlast,
        fun y hy => hinner y (List.mem_cons_of_mem _ hy)⟩
  · rintro (⟨hlast, rfl⟩ | ⟨hid, inner, last, rfl, hlast, hinner⟩)
    · exact ⟨[], id, rfl, hlast, fun _ hx => absurd hx List.not_mem_nil⟩
    · refine ⟨id :: inner, last, rfl, hlast, fun y hy => ?_⟩
      rcases List.mem_cons.1 hy with rfl | hy
      · exact hid
      · exact hinner y hy

/-- A tail at the beginning of a list is its first node, or goes on behind it. -/
theorem isTail_prefix_cons_iff {id : NodeId} {ids rest : List NodeId} :
    t.IsTail pair ids ∧ ids <+: id :: rest ↔
      (t.bracket? id = some (.closing pair) ∧ ids = [id]) ∨
        (t.IsInner pair id ∧ ∃ tail, ids = id :: tail ∧ t.IsTail pair tail ∧ tail <+: rest) := by
  constructor
  · rintro ⟨htail, hpre⟩
    rcases List.prefix_cons_iff.1 hpre with rfl | ⟨tail, rfl, hrest⟩
    · exact absurd htail not_isTail_nil
    · rcases isTail_cons_iff.1 htail with ⟨hid, rfl⟩ | ⟨hid, htail⟩
      · exact Or.inl ⟨hid, rfl⟩
      · exact Or.inr ⟨hid, tail, rfl, htail, hrest⟩
  · rintro (⟨hid, rfl⟩ | ⟨hid, tail, rfl, htail, hpre⟩)
    · exact ⟨isTail_cons_iff.2 (Or.inl ⟨hid, rfl⟩), List.prefix_cons_iff.2
        (Or.inr ⟨[], rfl, List.nil_prefix⟩)⟩
    · exact ⟨isTail_cons_iff.2 (Or.inr ⟨hid, htail⟩),
        List.prefix_cons_iff.2 (Or.inr ⟨tail, rfl, hpre⟩)⟩

/-- A span in a list begins with the first node, or lies behind it. -/
theorem isSpan_infix_cons_iff {id : NodeId} {ids rest : List NodeId} :
    t.IsSpan pair ids ∧ ids <:+: id :: rest ↔
      (t.bracket? id = some (.opening pair) ∧
          ∃ tail, ids = id :: tail ∧ t.IsTail pair tail ∧ tail <+: rest) ∨
        (t.IsSpan pair ids ∧ ids <:+: rest) := by
  constructor
  · rintro ⟨hspan, hinfix⟩
    rcases List.infix_cons_iff.1 hinfix with hpre | hinfix
    · obtain ⟨first, tail, rfl, hfirst, htail⟩ := hspan
      obtain ⟨rfl, hrest⟩ := List.cons_prefix_cons.1 hpre
      exact Or.inl ⟨hfirst, tail, rfl, htail, hrest⟩
    · exact Or.inr ⟨hspan, hinfix⟩
  · rintro (⟨hid, tail, rfl, htail, hpre⟩ | ⟨hspan, hinfix⟩)
    · exact ⟨⟨id, tail, rfl, hid, htail⟩,
        (List.cons_prefix_cons.2 ⟨rfl, hpre⟩).isInfix⟩
    · exact ⟨hspan, List.infix_cons_iff.2 (Or.inr hinfix)⟩

/-- A span does not begin with a node that is no opening end. -/
theorem isSpan_infix_cons_iff_of_ne {id : NodeId} {ids rest : List NodeId}
    (hid : t.bracket? id ≠ some (.opening pair)) :
    t.IsSpan pair ids ∧ ids <:+: id :: rest ↔ t.IsSpan pair ids ∧ ids <:+: rest := by
  rw [isSpan_infix_cons_iff]
  exact or_iff_right fun hfirst => hid hfirst.1

/-- **The spans that a scan finds.** They are those of the list it goes through, and the one that is
open at its beginning if the list closes it. -/
theorem mem_spansFrom_iff {span : Option (List NodeId)} {ids found : List NodeId} :
    found ∈ t.spansFrom pair span ids ↔
      (t.IsSpan pair found ∧ found <:+: ids) ∨
        ∃ before tail, span = some before ∧ found = before.reverse ++ tail ∧
          t.IsTail pair tail ∧ tail <+: ids := by
  induction ids generalizing span with
  | nil =>
    rw [spansFrom]
    refine iff_of_false List.not_mem_nil ?_
    rintro (⟨⟨first, tail, rfl, _⟩, hinfix⟩ | ⟨before, tail, _, _, htail, hpre⟩)
    · exact List.cons_ne_nil _ _ (List.infix_nil.1 hinfix)
    · exact not_isTail_nil (List.prefix_nil.1 hpre ▸ htail)
  | cons id rest ih =>
    unfold spansFrom
    split
    · next hopen =>
      -- An opening end begins the span anew, whatever was open before.
      rw [ih, isSpan_infix_cons_iff]
      constructor
      · rintro (hspan | ⟨before, tail, hbefore, rfl, htail, hpre⟩)
        · exact Or.inl (Or.inr hspan)
        · cases hbefore
          exact Or.inl (Or.inl ⟨hopen, tail, rfl, htail, hpre⟩)
      · rintro ((⟨_, tail, rfl, htail, hpre⟩ | hspan) | ⟨before, tail, _, _, htail⟩)
        · exact Or.inr ⟨[id], tail, rfl, rfl, htail, hpre⟩
        · exact Or.inl hspan
        · rcases isTail_prefix_cons_iff.1 htail with ⟨hclose, _⟩ | ⟨hinner, _⟩
          · rw [hopen] at hclose
            cases hclose
          · exact absurd hopen hinner.1
    split
    · next hopen hclose =>
      -- A closing end ends what was open before, and leaves nothing open.
      have hrest : found ∈ t.spansFrom pair none rest ↔ t.IsSpan pair found ∧ found <:+: rest := by
        rw [ih]
        exact or_iff_left fun ⟨_, _, hnone, _⟩ => absurd hnone nofun
      have htail : ∀ ids : List NodeId, t.IsTail pair ids ∧ ids <+: id :: rest ↔ ids = [id] := by
        intro ids
        rw [isTail_prefix_cons_iff, or_iff_left fun hinner => hinner.1.2 hclose]
        exact and_iff_right hclose
      rw [isSpan_infix_cons_iff_of_ne hopen, ← hrest]
      cases span with
      | none => exact (or_iff_left fun ⟨_, _, hnone, _⟩ => absurd hnone nofun).symm
      | some before =>
        rw [List.mem_cons, Or.comm]
        refine or_congr_right ⟨?_, ?_⟩
        · rintro rfl
          exact ⟨before, [id], rfl, List.reverse_cons, (htail _).2 rfl⟩
        · rintro ⟨_, tail, hbefore, rfl, hlast⟩
          cases hbefore
          rw [(htail tail).1 hlast, List.reverse_cons]
    · next hopen hclose =>
      -- Any other node goes to what is open.
      have hinner : t.IsInner pair id := ⟨hopen, hclose⟩
      rw [ih, isSpan_infix_cons_iff_of_ne hopen]
      refine or_congr_right ⟨?_, ?_⟩
      · rintro ⟨_, tail, hspan, rfl, htail, hpre⟩
        obtain ⟨before, rfl, rfl⟩ := Option.map_eq_some_iff.1 hspan
        refine ⟨before, id :: tail, rfl, by simp, isTail_prefix_cons_iff.2 ?_⟩
        exact Or.inr ⟨hinner, tail, rfl, htail, hpre⟩
      · rintro ⟨before, tail, rfl, rfl, htail⟩
        rcases isTail_prefix_cons_iff.1 htail with ⟨hlast, _⟩ | ⟨_, tail, rfl, htail, hpre⟩
        · exact absurd hlast hclose
        · exact ⟨id :: before, tail, rfl, by simp, htail, hpre⟩

/-- A scan with no span open before it finds the spans of its list. -/
theorem mem_spansFrom_none_iff {ids found : List NodeId} :
    found ∈ t.spansFrom pair none ids ↔ t.IsSpan pair found ∧ found <:+: ids := by
  rw [mem_spansFrom_iff, or_iff_left]
  rintro ⟨_, _, hnone, _⟩
  cases hnone

/-- Where a scan finds a node: in some span of the list it goes through. -/
theorem mem_flatten_spansFrom_iff {ids : List NodeId} {id : NodeId} :
    id ∈ (t.spansFrom pair none ids).flatten ↔
      ∃ span, t.IsSpan pair span ∧ span <:+: ids ∧ id ∈ span := by
  rw [List.mem_flatten]
  refine exists_congr fun span => ?_
  rw [mem_spansFrom_none_iff, and_assoc]

/-! ### Intervals -/

/-- The bracket at a place in a list of nodes. -/
def bracketAt? (t : Tree) (ids : List NodeId) (i : Nat) : Option Bracket :=
  ids[i]?.bind t.bracket?

/-- There is an opening end at the first place and a closing one at the second, and no end of the
pair between them. -/
structure IsInterval (t : Tree) (pair : UInt32) (ids : List NodeId) (i j : Nat) : Prop where
  lt : i < j
  opening : t.bracketAt? ids i = some (.opening pair)
  closing : t.bracketAt? ids j = some (.closing pair)
  between : ∀ k, i < k → k < j →
    t.bracketAt? ids k ≠ some (.opening pair) ∧ t.bracketAt? ids k ≠ some (.closing pair)

theorem exists_append_of_bracketAt? {ids : List NodeId} {i : Nat} {b : Bracket}
    (h : t.bracketAt? ids i = some b) :
    ∃ before id after,
      ids = before ++ id :: after ∧ before.length = i ∧ t.bracket? id = some b := by
  obtain ⟨id, hid, hb⟩ := Option.bind_eq_some_iff.1 h
  obtain ⟨hlt, rfl⟩ := List.getElem?_eq_some_iff.1 hid
  refine ⟨ids.take i, ids[i], ids.drop (i + 1), ?_, List.length_take_of_le (Nat.le_of_lt hlt), hb⟩
  rw [← List.drop_eq_getElem_cons hlt, List.take_append_drop]

/-- A place behind the beginning of a list is a place in what follows. -/
theorem bracketAt?_append (before ids : List NodeId) (k : Nat) :
    t.bracketAt? (before ++ ids) (before.length + k) = t.bracketAt? ids k := by
  rw [bracketAt?, List.getElem?_append_right (Nat.le_add_right _ _), Nat.add_sub_cancel_left,
    bracketAt?]

theorem bracketAt?_append_cons (before ids : List NodeId) (id : NodeId) (k : Nat) :
    t.bracketAt? (before ++ id :: ids) (before.length + (k + 1)) = t.bracketAt? ids k := by
  rw [bracketAt?_append, bracketAt?, List.getElem?_cons_succ, bracketAt?]

/-- A tail at the beginning of a list ends at the first place that has an end of the pair. -/
theorem exists_tail_iff {ids : List NodeId} {m : Nat} :
    (∃ tail after, t.IsTail pair tail ∧ ids = tail ++ after ∧ tail.length = m + 1) ↔
      t.bracketAt? ids m = some (.closing pair) ∧ ∀ k < m,
        t.bracketAt? ids k ≠ some (.opening pair) ∧ t.bracketAt? ids k ≠ some (.closing pair) := by
  have hplace : ∀ {inner rest : List NodeId} {k : Nat} (hk : k < inner.length),
      t.bracketAt? (inner ++ rest) k = t.bracket? inner[k] := by
    intro inner rest k hk
    rw [bracketAt?, List.getElem?_append_left hk, List.getElem?_eq_getElem hk, Option.bind_some]
  constructor
  · rintro ⟨_, after, ⟨inner, last, rfl, hlast, hinner⟩, rfl, hlen⟩
    obtain rfl : inner.length = m := by simpa using hlen
    rw [List.append_assoc]
    refine ⟨(bracketAt?_append inner ([last] ++ after) 0).trans hlast, fun k hk => ?_⟩
    rw [hplace hk]
    exact hinner _ (List.getElem_mem hk)
  · rintro ⟨hclosing, hbetween⟩
    obtain ⟨inner, last, after, rfl, rfl, hlast⟩ := exists_append_of_bracketAt? hclosing
    refine ⟨inner ++ [last], after, ⟨inner, last, rfl, hlast, fun id hid => ?_⟩, by simp, by simp⟩
    obtain ⟨k, hk, rfl⟩ := List.mem_iff_getElem.1 hid
    have hk' := hbetween k hk
    rw [hplace hk] at hk'
    exact hk'

/-- **Intervals are where the spans lie.** -/
theorem isInterval_iff {ids : List NodeId} {i j : Nat} :
    t.IsInterval pair ids i j ↔
      ∃ before span after, t.IsSpan pair span ∧ ids = before ++ span ++ after ∧
        before.length = i ∧ before.length + span.length = j + 1 := by
  constructor
  · intro h
    obtain ⟨before, first, rest, rfl, rfl, hfirst⟩ := exists_append_of_bracketAt? h.opening
    obtain ⟨m, rfl⟩ := Nat.exists_eq_add_of_lt h.lt
    rw [Nat.add_assoc] at h
    have hends : t.bracketAt? rest m = some (.closing pair) ∧ ∀ k < m,
        t.bracketAt? rest k ≠ some (.opening pair) ∧
          t.bracketAt? rest k ≠ some (.closing pair) := by
      simp only [← bracketAt?_append_cons before rest first]
      exact ⟨h.closing, fun k hk => h.between _ (by omega) (by omega)⟩
    obtain ⟨tail, after, htail, rfl, hlen⟩ := exists_tail_iff.2 hends
    exact ⟨before, first :: tail, after, ⟨first, tail, rfl, hfirst, htail⟩, by simp, rfl,
      by rw [List.length_cons, hlen]; omega⟩
  · rintro ⟨before, _, after, ⟨first, tail, rfl, hfirst, htail⟩, rfl, rfl, hj⟩
    have hne : tail ≠ [] := fun h => not_isTail_nil (h ▸ htail)
    obtain ⟨m, hlen⟩ := Nat.exists_eq_succ_of_ne_zero (mt List.eq_nil_of_length_eq_zero hne)
    obtain ⟨hclosing, hbetween⟩ := exists_tail_iff.1 ⟨tail, after, htail, rfl, hlen⟩
    obtain rfl : j = before.length + (m + 1) := by
      rw [List.length_cons, hlen] at hj
      omega
    rw [List.append_assoc, List.cons_append]
    refine ⟨by omega, (bracketAt?_append before _ 0).trans hfirst, ?_, fun k hik hkj => ?_⟩
    · rw [bracketAt?_append_cons]
      exact hclosing
    · obtain ⟨n, rfl⟩ := Nat.exists_eq_add_of_lt hik
      rw [Nat.add_assoc, bracketAt?_append_cons]
      exact hbetween n (by omega)

/-- The members of a segment of a list are what the list has at the places of the segment. -/
private theorem mem_iff_getElem?_append {before span after : List NodeId} {id : NodeId} :
    id ∈ span ↔ ∃ k, before.length ≤ k ∧ k < before.length + span.length ∧
      (before ++ span ++ after)[k]? = some id := by
  rw [List.mem_iff_getElem?, List.append_assoc]
  constructor
  · rintro ⟨k, hk⟩
    have hlt : k < span.length := (List.getElem?_eq_some_iff.1 hk).1
    refine ⟨before.length + k, Nat.le_add_right _ _, Nat.add_lt_add_left hlt _, ?_⟩
    rw [List.getElem?_append_right (Nat.le_add_right _ _), Nat.add_sub_cancel_left,
      List.getElem?_append_left hlt, hk]
  · rintro ⟨k, hle, hlt, hk⟩
    obtain ⟨m, rfl⟩ := Nat.exists_eq_add_of_le hle
    refine ⟨m, ?_⟩
    rw [← hk, List.getElem?_append_right hle, Nat.add_sub_cancel_left,
      List.getElem?_append_left (Nat.lt_of_add_lt_add_left hlt)]

/-- **A node is in a span just if its place is in an interval.** -/
theorem exists_span_iff {ids : List NodeId} {id : NodeId} :
    (∃ span, t.IsSpan pair span ∧ span <:+: ids ∧ id ∈ span) ↔
      ∃ i j k, t.IsInterval pair ids i j ∧ i ≤ k ∧ k ≤ j ∧ ids[k]? = some id := by
  constructor
  · rintro ⟨span, hspan, ⟨before, after, rfl⟩, hid⟩
    obtain ⟨k, hik, hkj, hk⟩ := mem_iff_getElem?_append.1 hid
    have hpos : 0 < span.length := List.length_pos_of_mem hid
    exact ⟨before.length, before.length + span.length - 1, k,
      isInterval_iff.2 ⟨before, span, after, hspan, rfl, rfl, by omega⟩, hik, by omega, hk⟩
  · rintro ⟨i, j, k, hinterval, hik, hkj, hk⟩
    obtain ⟨before, span, after, hspan, rfl, rfl, hj⟩ := isInterval_iff.1 hinterval
    exact ⟨span, hspan, ⟨before, after, rfl⟩,
      mem_iff_getElem?_append.2 ⟨k, hik, hj ▸ Nat.lt_succ_of_le hkj, hk⟩⟩

end Tree

end TokenHighlight
