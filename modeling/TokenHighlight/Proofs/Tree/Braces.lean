import TokenHighlight.Proofs.Tree.DocumentOrder
import TokenHighlight.Proofs.Tree.Structure

/-!
# Pairs of braces

The lookup by text knows no stack. From an opening brace it goes forward with a counter until the
counter is back at zero, and from a closing one it goes backward. A stack goes through the document
once: an opening brace is put on it, a closing one takes the top one off, if there is any. Both come
to the same pairs, in every sequence of braces, also one in which many have no partner.

## Why they agree

A pair is an opening brace, a closing one behind it, and between them a run of tokens whose depths
add up to zero without ever going below zero on the way. `Closes` says this with a depth to begin
with, so that it can be followed through a list: the depth is one less than the counter of the
search, and it is the number of braces on the stack above the one that is waiting.

Backward it is the same run. Where all beginnings of a run add up to at least zero, and the whole to
zero, all ends add up to at most zero; so with depths turned around the reversed run is again one.
That is why the search from a closing brace finds the opening one that found it.

## Main definitions

* `BraceLookup.Closes`, `BraceLookup.IsPair` — pairs, described by sums of depths
* `BraceLookup.stackPairs`, `Tree.bracePairs` — pairs, found with a stack that goes by texts
* `BraceLookup.IsDepth` — depths that go by texts
* `BraceLookup.firstBalancedInt32` — the search with a counter of 32 bits

## Main results

* `BraceLookup.firstBalanced_eq_some_iff` — what the search finds
* `BraceLookup.mem_stackPairs_iff` — what the stack finds
* `BraceLookup.isPair_reverse_iff` — pairs in the reversed list
* `Tree.ne_of_partnerByText?` — no brace is its own partner
* `Tree.partners_as_on_stack` — the whole contract of the lookup by text
-/

namespace TokenHighlight

namespace BraceLookup

variable {δ : NodeId → Int} {depth : Int} {ids rest stack : List NodeId} {a b c d x : NodeId}

/-! ### Sums of depths -/

/-- The sum of the depths of some nodes. -/
def total (δ : NodeId → Int) : List NodeId → Int
  | [] => 0
  | x :: ids => δ x + total δ ids

@[simp] theorem total_nil (δ : NodeId → Int) : total δ [] = 0 := rfl

@[simp] theorem total_cons (δ : NodeId → Int) (x : NodeId) (ids : List NodeId) :
    total δ (x :: ids) = δ x + total δ ids := rfl

@[simp] theorem total_append (δ : NodeId → Int) (ids ids' : List NodeId) :
    total δ (ids ++ ids') = total δ ids + total δ ids' := by
  induction ids with
  | nil => exact (Int.zero_add _).symm
  | cons x ids ih => rw [List.cons_append, total_cons, ih, total_cons, Int.add_assoc]

@[simp] theorem total_reverse (δ : NodeId → Int) (ids : List NodeId) :
    total δ ids.reverse = total δ ids := by
  induction ids with
  | nil => rfl
  | cons x ids ih =>
    rw [List.reverse_cons, total_append, ih, total_cons, total_cons, total_nil]
    omega

@[simp] theorem total_neg (δ : NodeId → Int) (ids : List NodeId) :
    total (fun x => -δ x) ids = -total δ ids := by
  induction ids with
  | nil => rfl
  | cons x ids ih =>
    rw [total_cons, total_cons, ih]
    omega

/-! ### Pairs -/

/-- A node closes what is open before a list. The depth is `depth` in front of the list, never falls
below zero on the way to the node, and is zero in front of it. -/
def Closes (δ : NodeId → Int) (depth : Int) (ids : List NodeId) (b : NodeId) : Prop :=
  ∃ inner after, ids = inner ++ b :: after ∧ δ b = -1 ∧ depth + total δ inner = 0 ∧
    ∀ p, p <+: inner → 0 ≤ depth + total δ p

/-- Two nodes of a list are a pair: the first opens, the second closes what is open behind it. -/
def IsPair (δ : NodeId → Int) (ids : List NodeId) (a b : NodeId) : Prop :=
  ∃ before rest, ids = before ++ a :: rest ∧ δ a = 1 ∧ Closes δ 0 rest b

theorem Closes.depth_nonneg (h : Closes δ depth ids b) : 0 ≤ depth := by
  obtain ⟨_, _, _, _, _, hp⟩ := h
  have hnil := hp [] List.nil_prefix
  rw [total_nil] at hnil
  omega

theorem Closes.eq_neg_one (h : Closes δ depth ids b) : δ b = -1 := by
  obtain ⟨_, _, _, hb, _⟩ := h
  exact hb

theorem Closes.mem (h : Closes δ depth ids b) : b ∈ ids := by
  obtain ⟨_, _, rfl, _⟩ := h
  simp

theorem not_closes_nil : ¬Closes δ depth [] b := by
  intro h
  exact List.not_mem_nil h.mem

/-- What closes a list is its first node, or closes the rest of it at the depth behind that node. -/
theorem closes_cons_iff :
    Closes δ depth (x :: rest) b ↔
      (depth = 0 ∧ x = b ∧ δ b = -1) ∨ (0 ≤ depth ∧ Closes δ (depth + δ x) rest b) := by
  constructor
  · rintro ⟨inner, after, hids, hb, hsum, hp⟩
    have hdepth : 0 ≤ depth := Closes.depth_nonneg ⟨inner, after, hids, hb, hsum, hp⟩
    cases inner with
    | nil =>
      obtain ⟨rfl, rfl⟩ := List.cons.inj hids
      rw [total_nil] at hsum
      exact Or.inl ⟨by omega, rfl, hb⟩
    | cons y inner =>
      obtain ⟨rfl, rfl⟩ := List.cons.inj hids
      rw [total_cons] at hsum
      refine Or.inr ⟨hdepth, inner, after, rfl, hb, by omega, ?_⟩
      intro p hbegins
      have hcons := hp (x :: p) ((List.prefix_cons_inj x).2 hbegins)
      rw [total_cons] at hcons
      omega
  · rintro (⟨rfl, rfl, hb⟩ | ⟨hdepth, inner, after, rfl, hb, hsum, hp⟩)
    · refine ⟨[], rest, rfl, hb, rfl, ?_⟩
      intro p hbegins
      rw [List.prefix_nil.1 hbegins]
      exact Int.le_refl 0
    · refine ⟨x :: inner, after, rfl, hb, by rw [total_cons]; omega, ?_⟩
      intro p hbegins
      rcases List.prefix_cons_iff.1 hbegins with rfl | ⟨q, rfl, hq⟩
      · rw [total_nil]
        omega
      · have hrest := hp q hq
        rw [total_cons]
        omega

/-- Where the depth falls below zero, whatever was open has been closed. -/
theorem Closes.mem_of_total_neg {upper : List NodeId} (h : Closes δ depth (upper ++ rest) b)
    (hneg : depth + total δ upper < 0) : b ∈ upper := by
  obtain ⟨inner, after, hids, _, _, hp⟩ := h
  have hnot : ¬upper <+: inner := by
    intro hbegins
    have hle := hp upper hbegins
    omega
  rcases List.append_eq_append_iff.1 hids with ⟨more, hinner, _⟩ | ⟨more, hupper, hmore⟩
  · exact absurd ⟨more, hinner.symm⟩ hnot
  · cases more with
    | nil =>
      rw [List.append_nil] at hupper
      exact absurd (hupper ▸ List.prefix_rfl) hnot
    | cons y more =>
      obtain ⟨rfl, _⟩ := List.cons.inj hmore
      simp [hupper]

theorem IsPair.eq_one (h : IsPair δ ids a b) : δ a = 1 := by
  obtain ⟨_, _, _, ha, _⟩ := h
  exact ha

theorem IsPair.eq_neg_one (h : IsPair δ ids a b) : δ b = -1 := by
  obtain ⟨_, _, _, _, hb⟩ := h
  exact hb.eq_neg_one

/-- Nothing is its own partner: no node both opens and closes. -/
theorem IsPair.ne (h : IsPair δ ids a b) : b ≠ a := by
  have ha := h.eq_one
  have hb := h.eq_neg_one
  rintro rfl
  omega

theorem IsPair.mem_left (h : IsPair δ ids a b) : a ∈ ids := by
  obtain ⟨_, _, rfl, _⟩ := h
  simp

theorem not_isPair_nil : ¬IsPair δ [] a b := by
  intro h
  exact List.not_mem_nil h.mem_left

/-- A pair begins with the first node, or lies in the rest of a list. -/
theorem isPair_cons_iff :
    IsPair δ (x :: rest) a b ↔
      (x = a ∧ δ a = 1 ∧ Closes δ 0 rest b) ∨ IsPair δ rest a b := by
  constructor
  · rintro ⟨before, tail, hids, ha, hb⟩
    cases before with
    | nil =>
      obtain ⟨rfl, rfl⟩ := List.cons.inj hids
      exact Or.inl ⟨rfl, ha, hb⟩
    | cons y before =>
      obtain ⟨rfl, rfl⟩ := List.cons.inj hids
      exact Or.inr ⟨before, tail, rfl, ha, hb⟩
  · rintro (⟨rfl, ha, hb⟩ | ⟨before, tail, rfl, ha, hb⟩)
    · exact ⟨[], rest, rfl, ha, hb⟩
    · exact ⟨x :: before, tail, rfl, ha, hb⟩

theorem isPair_cons_iff_of_ne_one (hx : δ x ≠ 1) :
    IsPair δ (x :: rest) a b ↔ IsPair δ rest a b := by
  rw [isPair_cons_iff]
  refine or_iff_right ?_
  rintro ⟨rfl, ha, _⟩
  exact hx ha

/-- In a list without repetition the partner depends on nothing in front of the opening node. -/
theorem isPair_append_cons_iff {before : List NodeId} (hids : (before ++ a :: rest).Nodup) :
    IsPair δ (before ++ a :: rest) a b ↔ δ a = 1 ∧ Closes δ 0 rest b := by
  induction before with
  | nil =>
    have hrest : a ∉ rest := (List.nodup_cons.1 hids).1
    rw [List.nil_append, isPair_cons_iff, or_iff_left fun h => hrest h.mem_left]
    exact and_iff_right rfl
  | cons y before ih =>
    obtain ⟨hy, hids⟩ := List.nodup_cons.1 hids
    have hne : y ≠ a := by
      rintro rfl
      simp at hy
    rw [List.cons_append, isPair_cons_iff, or_iff_right fun h => hne h.1, ih hids]

/-! ### What the search finds -/

/-- **What the search finds.** Its counter is one above the depth at which the partner closes. -/
theorem firstBalanced_eq_some_iff (hδ : ∀ x, -1 ≤ δ x) (hdepth : 0 < depth) :
    firstBalanced δ depth ids = some b ↔ Closes δ (depth - 1) ids b := by
  induction ids generalizing depth with
  | nil => exact iff_of_false (Option.some_ne_none b).symm not_closes_nil
  | cons x rest ih =>
    have hx := hδ x
    rw [firstBalanced, closes_cons_iff]
    split
    · next hzero =>
      -- The counter comes to zero at `x`, and only from one: behind `x` nothing is left to close.
      have hfurther : ¬Closes δ (depth - 1 + δ x) rest b := by
        intro h
        have hle := h.depth_nonneg
        omega
      constructor
      · intro h
        cases h
        exact Or.inl ⟨by omega, rfl, by omega⟩
      · rintro (⟨_, rfl, _⟩ | ⟨_, h⟩)
        · rfl
        · exact absurd h hfurther
    · next hzero =>
      rw [ih (by omega), show depth + δ x - 1 = depth - 1 + δ x by omega]
      constructor
      · intro h
        exact Or.inr ⟨by omega, h⟩
      · rintro (⟨_, rfl, _⟩ | ⟨_, h⟩)
        · omega
        · exact h

/-- A search that has just gone past an opening node finds what closes the rest. -/
theorem firstBalanced_cons_eq_some_iff (hδ : ∀ x, -1 ≤ δ x) (ha : δ a = 1) :
    firstBalanced δ 0 (a :: rest) = some b ↔ Closes δ 0 rest b := by
  rw [firstBalanced, ha, if_neg (by decide), firstBalanced_eq_some_iff hδ (by decide)]
  exact Iff.rfl

/-- What a search from an opening node finds is a partner of it, whatever else is in the list. -/
theorem isPair_of_firstBalanced_dropWhile (hδ : ∀ x, -1 ≤ δ x) (ha : δ a = 1)
    (h : firstBalanced δ 0 (ids.dropWhile (· ≠ a)) = some b) : IsPair δ ids a b := by
  induction ids with
  | nil => cases h
  | cons x rest ih =>
    by_cases hxa : x = a
    · subst hxa
      rw [List.dropWhile_cons_of_neg (by simp), firstBalanced_cons_eq_some_iff hδ ha] at h
      exact ⟨[], rest, rfl, ha, h⟩
    · rw [List.dropWhile_cons_of_pos (by simpa using hxa)] at h
      exact isPair_cons_iff.2 (Or.inr (ih h))

/-- **A search from an opening node finds its partner**, in a list without repetition. -/
theorem firstBalanced_dropWhile_eq_some_iff (hδ : ∀ x, -1 ≤ δ x) (ha : δ a = 1)
    (hids : ids.Nodup) :
    firstBalanced δ 0 (ids.dropWhile (· ≠ a)) = some b ↔ IsPair δ ids a b := by
  refine ⟨isPair_of_firstBalanced_dropWhile hδ ha, ?_⟩
  rintro ⟨before, rest, rfl, _, hb⟩
  have hbefore : ∀ x ∈ before, decide (x ≠ a) = true := by
    intro x hx
    exact decide_eq_true ((List.nodup_append.1 hids).2.2 x hx a List.mem_cons_self)
  rw [List.dropWhile_append_of_pos hbefore, List.dropWhile_cons_of_neg (by simp)]
  exact (firstBalanced_cons_eq_some_iff hδ ha).2 hb

/-! ### Pairs in the reversed list -/

theorem IsPair.reverse (h : IsPair δ ids a b) : IsPair (fun x => -δ x) ids.reverse b a := by
  obtain ⟨before, rest, rfl, ha, inner, after, rfl, hb, hsum, hp⟩ := h
  have hopens : -δ b = 1 := by omega
  have hcloses : -δ a = -1 := by omega
  refine ⟨after.reverse, inner.reverse ++ a :: before.reverse, by simp, hopens,
    inner.reverse, before.reverse, rfl, hcloses, ?_, ?_⟩
  · rw [total_neg, total_reverse]
    omega
  · intro p hbegins
    -- What is left of the run is a beginning of it.
    obtain ⟨q, hq⟩ : p.reverse <:+ inner := by
      simpa using List.reverse_suffix.2 hbegins
    have hle := hp q ⟨p.reverse, hq⟩
    rw [← hq, total_append, total_reverse] at hsum
    rw [total_neg]
    omega

/-- **Pairs are pairs in both directions.** -/
theorem isPair_reverse_iff :
    IsPair (fun x => -δ x) ids.reverse b a ↔ IsPair δ ids a b := by
  refine ⟨fun h => ?_, IsPair.reverse⟩
  have hback := h.reverse
  rw [List.reverse_reverse] at hback
  simpa only [Int.neg_neg] using hback

/-! ### What the stack finds -/

/-- The pairs that a stack makes in a list of nodes by their texts. An opening brace is put on the
stack; a closing one takes the top off it and is its partner, or has none if the stack is empty. -/
def stackPairs (text? : NodeId → Option String) :
    List NodeId → List NodeId → List (NodeId × NodeId)
  | _, [] => []
  | stack, x :: rest =>
    if text? x = some "\x7b" then stackPairs text? (x :: stack) rest
    else if text? x = some "\x7d" then
      (stack.head?.map (·, x)).toList ++ stackPairs text? stack.tail rest
    else stackPairs text? stack rest

/-- What nodes with these texts add to the depth. -/
def IsDepth (text? : NodeId → Option String) (δ : NodeId → Int) : Prop :=
  ∀ x, δ x = if text? x = some "\x7b" then 1 else if text? x = some "\x7d" then -1 else 0

/-- A node waits on the stack, and the list closes it and the nodes above it. -/
def ClosesOnStack (δ : NodeId → Int) (stack ids : List NodeId) (a b : NodeId) : Prop :=
  ∃ above : Nat, stack[above]? = some a ∧ Closes δ above ids b

/-- Behind a node that closes nothing, the depth is what the node has made it. -/
theorem closes_cons_iff_of_ne_neg_one (hx : δ x ≠ -1) (above : Nat) :
    Closes δ above (x :: rest) b ↔ Closes δ (above + δ x) rest b := by
  rw [closes_cons_iff, or_iff_right (by rintro ⟨_, rfl, hb⟩; exact hx hb)]
  exact and_iff_right (Int.natCast_nonneg above)

theorem closesOnStack_of_one (hx : δ x = 1) :
    ClosesOnStack δ (x :: stack) rest a b ↔
      (x = a ∧ Closes δ 0 rest b) ∨ ClosesOnStack δ stack (x :: rest) a b := by
  rw [ClosesOnStack, ← Nat.or_exists_add_one]
  refine or_congr (and_congr_left fun _ => ?_) (exists_congr fun above => ?_)
  · exact Option.some_inj
  · rw [closes_cons_iff_of_ne_neg_one (by omega), hx]
    exact Iff.rfl

theorem closesOnStack_of_neg_one (hx : δ x = -1) :
    ClosesOnStack δ stack (x :: rest) a b ↔
      (stack.head? = some a ∧ x = b) ∨ ClosesOnStack δ stack.tail rest a b := by
  rw [ClosesOnStack, ← Nat.or_exists_add_one]
  refine or_congr ?_ (exists_congr fun above => ?_)
  · rw [List.head?_eq_getElem?]
    refine and_congr_right fun _ => ?_
    rw [closes_cons_iff, or_iff_left]
    · exact ⟨fun h => h.2.1, fun h => ⟨rfl, h, h ▸ hx⟩⟩
    · rintro ⟨_, h⟩
      have hle := h.depth_nonneg
      omega
  · rw [List.getElem?_tail]
    refine and_congr_right fun _ => ?_
    rw [closes_cons_iff, or_iff_right (by omega), and_iff_right (by omega), hx]
    rw [show ((above + 1 : Nat) : Int) + -1 = above by omega]

theorem closesOnStack_of_zero (hx : δ x = 0) :
    ClosesOnStack δ stack (x :: rest) a b ↔ ClosesOnStack δ stack rest a b := by
  refine exists_congr fun above => and_congr_right fun _ => ?_
  rw [closes_cons_iff_of_ne_neg_one (by omega), hx, Int.add_zero]

/-- **What the stack finds.** The pairs of the list, and partners of what waits on the stack. -/
theorem mem_stackPairs_iff {text? : NodeId → Option String} (hδ : IsDepth text? δ) :
    (a, b) ∈ stackPairs text? stack ids ↔ IsPair δ ids a b ∨ ClosesOnStack δ stack ids a b := by
  induction ids generalizing stack with
  | nil =>
    rw [stackPairs]
    refine iff_of_false List.not_mem_nil (not_or.2 ⟨not_isPair_nil, ?_⟩)
    rintro ⟨_, _, h⟩
    exact not_closes_nil h
  | cons x rest ih =>
    have hx := hδ x
    rw [stackPairs]
    by_cases hopening : text? x = some "\x7b"
    · rw [if_pos hopening] at hx ⊢
      rw [ih, closesOnStack_of_one hx, isPair_cons_iff]
      constructor
      · rintro (h | ⟨rfl, h⟩ | h)
        · exact Or.inl (Or.inr h)
        · exact Or.inl (Or.inl ⟨rfl, hx, h⟩)
        · exact Or.inr h
      · rintro ((⟨rfl, _, h⟩ | h) | h)
        · exact Or.inr (Or.inl ⟨rfl, h⟩)
        · exact Or.inl h
        · exact Or.inr (Or.inr h)
    rw [if_neg hopening] at hx ⊢
    by_cases hclosing : text? x = some "\x7d"
    · rw [if_pos hclosing] at hx ⊢
      rw [List.mem_append, ih, closesOnStack_of_neg_one hx, isPair_cons_iff_of_ne_one (by omega),
        or_left_comm]
      refine or_congr_right (or_congr_left ?_)
      rw [Option.mem_toList, Option.map_eq_some_iff]
      constructor
      · rintro ⟨top, htop, heq⟩
        obtain ⟨rfl, rfl⟩ := Prod.mk.inj heq
        exact ⟨htop, rfl⟩
      · rintro ⟨htop, rfl⟩
        exact ⟨a, htop, rfl⟩
    · rw [if_neg hclosing] at hx ⊢
      rw [ih, closesOnStack_of_zero hx, isPair_cons_iff_of_ne_one (by omega)]

theorem mem_stackPairs_nil_iff {text? : NodeId → Option String} (hδ : IsDepth text? δ) :
    (a, b) ∈ stackPairs text? [] ids ↔ IsPair δ ids a b := by
  rw [mem_stackPairs_iff hδ]
  refine or_iff_left ?_
  rintro ⟨above, h, _⟩
  cases h

/-! ### Pairs and positions -/

/-- In front of a node in a list without repetition are the nodes with smaller positions. -/
theorem mem_iff_idxOf_lt {before : List NodeId} (hids : (before ++ b :: rest).Nodup)
    (hx : x ∈ before ++ b :: rest) :
    x ∈ before ↔ (before ++ b :: rest).idxOf x < (before ++ b :: rest).idxOf b := by
  have hb : b ∉ before := by
    intro hmem
    exact (List.nodup_append.1 hids).2.2 b hmem b List.mem_cons_self rfl
  have hposition : (before ++ b :: rest).idxOf b = before.length := by
    rw [List.idxOf_append_of_notMem hb, List.idxOf_cons_self, Nat.add_zero]
  rw [hposition, ← List.mem_take_iff_idxOf_lt hx, List.take_left]

theorem IsPair.idxOf_lt (h : IsPair δ ids a b) (hids : ids.Nodup) :
    ids.idxOf a < ids.idxOf b := by
  obtain ⟨before, rest, rfl, _, inner, after, rfl, _⟩ := h
  rw [← List.cons_append, ← List.append_assoc] at hids ⊢
  exact (mem_iff_idxOf_lt hids (by simp)).1 (by simp)

/-- **Pairs do not cross.** What opens inside of a pair closes inside of it: from there to the end
of the pair the depth falls below what it was in front of the node that opens. -/
theorem IsPair.idxOf_lt_of_idxOf_lt (h : IsPair δ ids a b) (h' : IsPair δ ids c d)
    (hids : ids.Nodup) (hac : ids.idxOf a < ids.idxOf c) (hcb : ids.idxOf c < ids.idxOf b) :
    ids.idxOf d < ids.idxOf b := by
  have hc : c ∈ ids := h'.mem_left
  obtain ⟨before, _, rfl, _, inner, after, rfl, _, hsum, hp⟩ := h
  have hbehind : c ∉ before ∧ c ≠ a := by
    refine ⟨?_, ?_⟩
    · intro hmem
      have hlt := (mem_iff_idxOf_lt hids hc).1 hmem
      omega
    · rintro rfl
      omega
  have hfront : before ++ a :: (inner ++ b :: after) = (before ++ a :: inner) ++ b :: after := by
    simp
  have hinner : c ∈ inner := by
    rw [hfront] at hids hc hcb
    have hmem := (mem_iff_idxOf_lt hids hc).2 hcb
    rw [List.mem_append, List.mem_cons] at hmem
    tauto
  obtain ⟨inner, inner', rfl⟩ := List.append_of_mem hinner
  have hd : d ∈ inner' := by
    have hsplit : before ++ a :: (inner ++ c :: inner' ++ b :: after) =
        (before ++ a :: inner) ++ c :: (inner' ++ b :: after) := by
      simp
    rw [hsplit] at hids h'
    have hopen := h'.eq_one
    have hclose : Closes δ 0 (inner' ++ b :: after) d := ((isPair_append_cons_iff hids).1 h').2
    have hle := hp inner (List.prefix_append inner _)
    rw [total_append, total_cons] at hsum
    exact hclose.mem_of_total_neg (by omega)
  rw [hfront] at hids ⊢
  exact (mem_iff_idxOf_lt hids (by simp [hd])).1 (by simp [hd])

/-! ### A counter of 32 bits -/

/-- The search with a counter of 32 bits. It comes to no answer at all, not even that there is no
such node, as soon as the counter would leave its range. -/
def firstBalancedInt32 (δ : NodeId → Int) : Int → List NodeId → Option (Option NodeId)
  | _, [] => some none
  | depth, x :: rest =>
    if Int32.minValue.toInt ≤ depth + δ x ∧ depth + δ x ≤ Int32.maxValue.toInt then
      if depth + δ x = 0 then some (some x) else firstBalancedInt32 δ (depth + δ x) rest
    else none

/-- A counter that is moved by one cannot leave its range in a list that is shorter than it. -/
theorem firstBalancedInt32_eq_some (hδ : ∀ x, -1 ≤ δ x ∧ δ x ≤ 1)
    (hlow : -2147483648 ≤ depth - ids.length) (hhigh : depth + ids.length ≤ 2147483647) :
    firstBalancedInt32 δ depth ids = some (firstBalanced δ depth ids) := by
  induction ids generalizing depth with
  | nil => rfl
  | cons x rest ih =>
    have hx := hδ x
    rw [List.length_cons] at hlow hhigh
    have hmin : Int32.minValue.toInt = -2147483648 := rfl
    have hmax : Int32.maxValue.toInt = 2147483647 := rfl
    rw [firstBalancedInt32, firstBalanced, if_pos (by omega), ih (by omega) (by omega)]
    split <;> rfl

end BraceLookup

namespace Tree

open BraceLookup

variable {t : Tree} {a b c d id : NodeId}

/-! ### Braces of a tree -/

/-- The text of a token. Nothing else has any. -/
def text? (t : Tree) (id : NodeId) : Option String :=
  (t.token? id).map (·.text)

/-- The pairs that a stack makes of the braces of a tree in document order, whatever the groups
are. -/
def bracePairs (t : Tree) : List (NodeId × NodeId) :=
  stackPairs t.text? [] t.tokens

theorem isDepth_braceDepth (t : Tree) : IsDepth t.text? t.braceDepth := by
  intro id
  rw [braceDepth, text?]
  cases t.token? id with
  | none => rfl
  | some tok => simp only [Option.map_some, Option.some_inj]

theorem braceDepth_eq_one_iff : t.braceDepth id = 1 ↔ t.text? id = some "\x7b" := by
  rw [t.isDepth_braceDepth]
  split
  · next h => exact iff_of_true rfl h
  · next h =>
    refine iff_of_false ?_ h
    split <;> decide

theorem braceDepth_eq_neg_one_iff : t.braceDepth id = -1 ↔ t.text? id = some "\x7d" := by
  rw [t.isDepth_braceDepth]
  split
  · next h =>
    rw [h]
    decide
  · split
    · next h => exact iff_of_true rfl h
    · next h => exact iff_of_false (by decide) h

theorem braceDepth_cases (t : Tree) (id : NodeId) :
    t.braceDepth id = 1 ∨ t.braceDepth id = -1 ∨ t.braceDepth id = 0 := by
  rw [t.isDepth_braceDepth]
  split
  · exact Or.inl rfl
  · split
    · exact Or.inr (Or.inl rfl)
    · exact Or.inr (Or.inr rfl)

theorem mem_bracePairs_iff : (a, b) ∈ t.bracePairs ↔ IsPair t.braceDepth t.tokens a b :=
  mem_stackPairs_nil_iff t.isDepth_braceDepth

/-- **The partner by text is the other one of a pair.** -/
theorem WellFormed.partnerByText?_eq_some_iff (h : t.WellFormed) :
    partnerByText? t a = some b ↔ (a, b) ∈ t.bracePairs ∨ (b, a) ∈ t.bracePairs := by
  rw [mem_bracePairs_iff, mem_bracePairs_iff, partnerByText?]
  have hnodup := h.nodup_tokens
  have hcases := t.braceDepth_cases
  split
  · next ha =>
    rw [firstBalanced_dropWhile_eq_some_iff (fun x => by have := hcases x; omega) ha hnodup]
    refine (or_iff_left ?_).symm
    intro hpair
    have hneg := hpair.eq_neg_one
    omega
  · next ha =>
    split
    · next hneg =>
      rw [firstBalanced_dropWhile_eq_some_iff (fun x => by have := hcases x; omega) (by omega)
        (List.nodup_reverse.2 hnodup), isPair_reverse_iff]
      refine (or_iff_right ?_).symm
      intro hpair
      exact ha hpair.eq_one
    · next hneg =>
      refine iff_of_false (Option.some_ne_none b).symm ?_
      rintro (hpair | hpair)
      · exact ha hpair.eq_one
      · exact hneg hpair.eq_neg_one

/-- A pair is an opening brace and a closing one, in this order. -/
theorem WellFormed.texts_of_mem_bracePairs (h : t.WellFormed) (hpair : (a, b) ∈ t.bracePairs) :
    t.text? a = some "\x7b" ∧ t.text? b = some "\x7d" ∧
      t.tokens.idxOf a < t.tokens.idxOf b := by
  rw [mem_bracePairs_iff] at hpair
  exact ⟨braceDepth_eq_one_iff.1 hpair.eq_one, braceDepth_eq_neg_one_iff.1 hpair.eq_neg_one,
    hpair.idxOf_lt h.nodup_tokens⟩

/-- A pair with one end strictly inside of another pair has both ends there. -/
theorem WellFormed.bracePairs_nested (h : t.WellFormed) (hab : (a, b) ∈ t.bracePairs)
    (hcd : (c, d) ∈ t.bracePairs) :
    (t.tokens.idxOf a < t.tokens.idxOf c → t.tokens.idxOf c < t.tokens.idxOf b →
        t.tokens.idxOf d < t.tokens.idxOf b) ∧
      (t.tokens.idxOf a < t.tokens.idxOf d → t.tokens.idxOf d < t.tokens.idxOf b →
        t.tokens.idxOf a < t.tokens.idxOf c) := by
  have hab' : IsPair t.braceDepth t.tokens a b := mem_bracePairs_iff.1 hab
  have hcd' : IsPair t.braceDepth t.tokens c d := mem_bracePairs_iff.1 hcd
  constructor
  · intro hac hcb
    exact hab'.idxOf_lt_of_idxOf_lt hcd' h.nodup_tokens hac hcb
  · intro had hdb
    by_contra hle
    have hne : t.tokens.idxOf a ≠ t.tokens.idxOf c := by
      intro heq
      obtain rfl : a = c := (List.idxOf_inj hab'.mem_left).1 heq
      have hb := h.partnerByText?_eq_some_iff.2 (Or.inl hab)
      rw [h.partnerByText?_eq_some_iff.2 (Or.inl hcd)] at hb
      cases hb
      omega
    have hbd := hcd'.idxOf_lt_of_idxOf_lt hab' h.nodup_tokens (by omega) had
    omega

/-! ### The search as it is carried out -/

/-- The tokens that the search from a brace goes through: those from an opening brace on, and those
from a closing one back. -/
def braceScan (t : Tree) (id : NodeId) : List NodeId :=
  (if t.braceDepth id = 1 then t.tokens else t.tokens.reverse).dropWhile (· ≠ id)

/-- Both directions are one search, with depths counted in the direction of the search. -/
theorem partnerByText?_eq (hid : t.braceDepth id ≠ 0) :
    partnerByText? t id =
      firstBalanced (fun x => t.braceDepth x * t.braceDepth id) 0 (t.braceScan id) := by
  rw [partnerByText?, braceScan]
  rcases t.braceDepth_cases id with hone | hneg | hzero
  · simp only [hone, if_true, Int.mul_one]
  · simp [hneg]
  · exact absurd hzero hid

/-- In the direction of the search the brace that it begins at opens. -/
theorem braceDepth_mul_self (hid : t.braceDepth id ≠ 0) :
    t.braceDepth id * t.braceDepth id = 1 := by
  rcases t.braceDepth_cases id with h | h | h
  · rw [h, Int.one_mul]
  · rw [h]
    rfl
  · exact absurd h hid

theorem braceDepth_mul_bounds (t : Tree) (id x : NodeId) :
    -1 ≤ t.braceDepth x * t.braceDepth id ∧ t.braceDepth x * t.braceDepth id ≤ 1 := by
  have hx := t.braceDepth_cases x
  rcases t.braceDepth_cases id with h | h | h <;> rw [h] <;> omega

/-- **No brace is its own partner by text**, in any tree. -/
theorem ne_of_partnerByText? (h : partnerByText? t a = some b) : b ≠ a := by
  have ha : t.braceDepth a ≠ 0 := of_decide_eq_true (isBrace_of_partnerByText? h)
  rw [partnerByText?_eq ha] at h
  exact (isPair_of_firstBalanced_dropWhile (fun x => (t.braceDepth_mul_bounds a x).1)
    (braceDepth_mul_self ha) h).ne

theorem length_braceScan_le (t : Tree) (id : NodeId) :
    (t.braceScan id).length ≤ t.tokens.length := by
  rw [braceScan]
  refine Nat.le_trans (List.dropWhile_sublist _).length_le ?_
  split
  · exact Nat.le_refl _
  · exact Nat.le_of_eq List.length_reverse

/-- **The counter stays in its range**, in trees with fewer than 2^31 tokens. -/
theorem firstBalancedInt32_braceScan (hsize : t.tokens.length < 2147483648)
    (hid : t.braceDepth id ≠ 0) :
    firstBalancedInt32 (fun x => t.braceDepth x * t.braceDepth id) 0 (t.braceScan id) =
      some (partnerByText? t id) := by
  have hlength := t.length_braceScan_le id
  rw [partnerByText?_eq hid]
  exact firstBalancedInt32_eq_some (t.braceDepth_mul_bounds id) (by omega) (by omega)

/-! ### The contract of the lookup by text -/

/-- **Partners by text are what a stack makes of the braces in document order**, in every tree that
comes about, whatever its groups are. So the two partners of a pair name each other; one is an
opening and the other a closing brace, which comes later. A brace that the stack leaves over has no
partner, and neither has a token that is no brace, a group or a number that names nothing. Pairs do
not cross. In a tree with fewer than 2^31 tokens a counter of 32 bits is enough to find them. -/
theorem partners_as_on_stack (edits : List Edit) :
    let t := edited edits
    let partner? := byText.partner? t
    let place := t.tokens.idxOf
    (∀ a b, partner? a = some b ↔ (a, b) ∈ t.bracePairs ∨ (b, a) ∈ t.bracePairs) ∧
    (∀ a b, partner? a = some b →
      partner? b = some a ∧ a ≠ b ∧ a ∈ t.tokens ∧ b ∈ t.tokens ∧
      (t.text? a = some "\x7b" ∧ t.text? b = some "\x7d" ∧ place a < place b ∨
        t.text? a = some "\x7d" ∧ t.text? b = some "\x7b" ∧ place b < place a)) ∧
    (∀ a, (∀ b, (a, b) ∉ t.bracePairs ∧ (b, a) ∉ t.bracePairs) → partner? a = none) ∧
    (∀ a, t.text? a ≠ some "\x7b" → t.text? a ≠ some "\x7d" → partner? a = none) ∧
    (∀ a b c d, partner? a = some b → partner? c = some d →
      place a < place c → place c < place b → place a < place d ∧ place d < place b) ∧
    (t.tokens.length < 2147483648 → ∀ id, t.braceDepth id ≠ 0 →
      firstBalancedInt32 (fun x => t.braceDepth x * t.braceDepth id) 0 (t.braceScan id) =
        some (partner? id)) := by
  intro t partner? place
  have h : t.WellFormed := wellFormed_edited edits
  have hpartner : ∀ a b, partner? a = some b ↔ (a, b) ∈ t.bracePairs ∨ (b, a) ∈ t.bracePairs :=
    fun a b => h.partnerByText?_eq_some_iff
  have hends : ∀ a b, partner? a = some b →
      (t.text? a = some "\x7b" ∧ t.text? b = some "\x7d" ∧ place a < place b ∨
        t.text? a = some "\x7d" ∧ t.text? b = some "\x7b" ∧ place b < place a) := by
    intro a b hab
    rcases (hpartner a b).1 hab with hpair | hpair
    · exact Or.inl (h.texts_of_mem_bracePairs hpair)
    · obtain ⟨hb, ha, hlt⟩ := h.texts_of_mem_bracePairs hpair
      exact Or.inr ⟨ha, hb, hlt⟩
  refine ⟨hpartner, ?_, ?_, ?_, ?_, ?_⟩
  · intro a b hab
    have hback : partner? b = some a := (hpartner b a).2 ((hpartner a b).1 hab).symm
    refine ⟨hback, ?_, mem_tokens_of_partnerByText? hback, mem_tokens_of_partnerByText? hab,
      hends a b hab⟩
    rintro rfl
    rcases hends a a hab with ⟨_, _, hlt⟩ | ⟨_, _, hlt⟩
    · omega
    · omega
  · intro a hunpaired
    refine Option.eq_none_iff_forall_ne_some.2 fun b hab => ?_
    rcases (hpartner a b).1 hab with hpair | hpair
    · exact (hunpaired b).1 hpair
    · exact (hunpaired b).2 hpair
  · intro a hopening hclosing
    refine Option.eq_none_iff_forall_ne_some.2 fun b hab => ?_
    rcases hends a b hab with ⟨ha, _⟩ | ⟨ha, _⟩
    · exact hopening ha
    · exact hclosing ha
  · intro a b c d hab hcd hac hcb
    have hlt : place a < place b := Nat.lt_trans hac hcb
    have hpair : (a, b) ∈ t.bracePairs := by
      refine ((hpartner a b).1 hab).resolve_right fun hba => ?_
      exact absurd (h.texts_of_mem_bracePairs hba).2.2 (Nat.not_lt_of_gt hlt)
    rcases (hpartner c d).1 hcd with hopens | hcloses
    · have hcd : place c < place d := (h.texts_of_mem_bracePairs hopens).2.2
      exact ⟨Nat.lt_trans hac hcd, (h.bracePairs_nested hpair hopens).1 hac hcb⟩
    · have hdc : place d < place c := (h.texts_of_mem_bracePairs hcloses).2.2
      exact ⟨(h.bracePairs_nested hpair hcloses).2 hac hcb, Nat.lt_trans hdc hcb⟩
  · exact fun hsize id hid => firstBalancedInt32_braceScan hsize hid

/-- The first brace closes nothing and the last one is never closed. The pair between them opens
outside of a group and closes in it. -/
example :
    let brace := fun parent text => Edit.add (.token parent (.plain { text }))
    (edited [brace 0 "\x7d", brace 0 "\x7b", .add (.group 0), brace 3 "\x7d",
      brace 0 "\x7b"]).bracePairs = [(2, 4)] := by
  decide +kernel

end Tree

end TokenHighlight
