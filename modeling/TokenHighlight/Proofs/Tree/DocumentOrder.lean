import Mathlib.Data.List.Flatten
import Mathlib.Data.List.Infix
import Mathlib.Data.List.Perm.Subperm
import TokenHighlight.Proofs.Tree.WellFormed

/-!
# Document order

`Tree.flatten` walks down with a stack and a number of steps. In a well-formed tree the steps are
never used up, and what comes out is what the recursion over children would give: a token has
itself, a group has the tokens of its children one after the other.

## Why the steps are enough

A tree has no record of what was visited, so one has to be kept beside the walk. `Walk` says that
no node is both visited and waiting or twice either, and that every one of them but the first has
its parent among the visited. A group that is replaced by its children was not visited before, so
none of its children was met before either. Visited nodes are therefore distinct, and there are
never more of them than nodes.

## Main results

* `Tree.WellFormed.flatten_eq_flatMap` — the tokens below a group, by recursion
* `Tree.WellFormed.mem_flatten_iff` — which tokens are below a node, by the walk up
* `Tree.WellFormed.nodup_flatten`, `Tree.WellFormed.mem_tokens_iff` — every token of the tree is
  listed once
* `Tree.WellFormed.flatten_isInfix` — the tokens below a node are a segment of those below every
  group around it
-/

namespace TokenHighlight

namespace Tree

variable {t : Tree}

/-! ### Steps of the walk down -/

theorem drain_token {id : NodeId} {tok : Token} (h : t.token? id = some tok) (steps : Nat)
    (stack : List NodeId) :
    t.drain (steps + 1) (id :: stack) = (t.drain steps stack).map (id :: ·) := by
  rw [token?] at h
  split at h
  · next hn => rw [drain, hn]
  · cases h

theorem drain_group {id : NodeId} (h : t.isGroup id = true) (steps : Nat) (stack : List NodeId) :
    t.drain (steps + 1) (id :: stack) = t.drain steps (t.children id ++ stack) := by
  rw [isGroup] at h
  split at h
  · next hn => rw [drain, children, hn]
  · cases h

theorem drain_foreign {id : NodeId} (h : t.contains id = false) (steps : Nat)
    (stack : List NodeId) : t.drain (steps + 1) (id :: stack) = none := by
  have hn : t.nodes[id]? = none := Array.getElem?_eq_none (Nat.le_of_not_lt (of_decide_eq_false h))
  rw [drain, hn]

/-- A number names a token, a group or nothing. -/
theorem kind_cases (t : Tree) (id : NodeId) :
    (∃ tok, t.token? id = some tok) ∨ t.isGroup id = true ∨ t.contains id = false := by
  rw [contains_eq_isGroup_or_isSome]
  cases t.isGroup id with
  | true => exact Or.inr (Or.inl rfl)
  | false =>
    cases t.token? id with
    | none => exact Or.inr (Or.inr rfl)
    | some tok => exact Or.inl ⟨tok, rfl⟩

theorem drain_succ {steps : Nat} {stack out : List NodeId} (h : t.drain steps stack = some out) :
    t.drain (steps + 1) stack = some out := by
  induction steps generalizing stack out with
  | zero =>
    cases stack with
    | nil => exact h
    | cons id stack => cases h
  | succ steps ih =>
    cases stack with
    | nil => exact h
    | cons id stack =>
      rcases kind_cases t id with ⟨tok, ht⟩ | hg | hf
      · rw [drain_token ht, Option.map_eq_some_iff] at h ⊢
        obtain ⟨rest, hrest, rfl⟩ := h
        exact ⟨rest, ih hrest, rfl⟩
      · rw [drain_group hg] at h ⊢
        exact ih h
      · rw [drain_foreign hf] at h
        cases h

/-- More steps do not change what comes out. -/
theorem drain_mono {m n : Nat} {stack out : List NodeId} (hle : m ≤ n)
    (h : t.drain m stack = some out) : t.drain n stack = some out := by
  induction hle with
  | refl => exact h
  | step _ ih => exact drain_succ ih

theorem drain_unique {m n : Nat} {stack out out' : List NodeId} (h : t.drain m stack = some out)
    (h' : t.drain n stack = some out') : out = out' := by
  have hm := drain_mono (Nat.le_max_left m n) h
  rw [drain_mono (Nat.le_max_right m n) h'] at hm
  exact (Option.some.inj hm).symm

/-- Two stacks on top of each other give what the upper one gives and then what the lower one
gives. -/
theorem drain_append {m n : Nat} {upper lower out out' : List NodeId}
    (h : t.drain m upper = some out) (h' : t.drain n lower = some out') :
    t.drain (m + n) (upper ++ lower) = some (out ++ out') := by
  induction m generalizing upper out with
  | zero =>
    cases upper with
    | nil =>
      cases h
      exact drain_mono (Nat.le_add_left n 0) h'
    | cons id upper => cases h
  | succ m ih =>
    cases upper with
    | nil =>
      cases h
      exact drain_mono (Nat.le_add_left n (m + 1)) h'
    | cons id upper =>
      rw [Nat.succ_add, List.cons_append]
      rcases kind_cases t id with ⟨tok, ht⟩ | hg | hf
      · rw [drain_token ht, Option.map_eq_some_iff] at h
        obtain ⟨rest, hrest, rfl⟩ := h
        rw [drain_token ht, ih hrest]
        rfl
      · rw [drain_group hg] at h
        rw [drain_group hg, ← List.append_assoc]
        exact ih h
      · rw [drain_foreign hf] at h
        cases h

/-! ### The steps are enough -/

/-- What holds in the middle of the walk down from `start`, with `visited` behind it and `stack`
before it. -/
structure Walk (t : Tree) (start : NodeId) (visited stack : List NodeId) : Prop where
  nodup : (visited ++ stack).Nodup
  lt_size : ∀ id ∈ visited ++ stack, id < t.size
  start_le : ∀ id ∈ visited ++ stack, start ≤ id
  parent_mem : ∀ id ∈ visited ++ stack, id = start ∨ ∃ p ∈ visited, t.parent? id = some p

namespace Walk

variable {start id : NodeId} {visited stack : List NodeId}

theorem single (hid : start < t.size) : Walk t start [] [start] where
  nodup := List.nodup_singleton _
  lt_size := by simpa using hid
  start_le := by simp
  parent_mem := by simp

/-- The node on top of the stack has been visited, whatever it is. -/
theorem pop (h : Walk t start visited (id :: stack)) : Walk t start (id :: visited) stack := by
  have hperm : (visited ++ id :: stack).Perm (id :: visited ++ stack) := List.perm_middle
  refine ⟨hperm.nodup_iff.1 h.nodup, fun x hx => h.lt_size x (hperm.mem_iff.2 hx),
    fun x hx => h.start_le x (hperm.mem_iff.2 hx), fun x hx => ?_⟩
  rcases h.parent_mem x (hperm.mem_iff.2 hx) with rfl | ⟨p, hp, hxp⟩
  · exact Or.inl rfl
  · exact Or.inr ⟨p, List.mem_cons_of_mem _ hp, hxp⟩

/-- The children of a group were not met before the group was visited. -/
theorem not_mem_of_mem_children (hwf : t.WellFormed) (h : Walk t start visited (id :: stack))
    {c : NodeId} (hc : c ∈ t.children id) : c ∉ visited ++ id :: stack := by
  intro hmem
  have hparent : t.parent? c = some id := hwf.mem_children_iff.1 hc
  rcases h.parent_mem c hmem with rfl | ⟨p, hp, hcp⟩
  · exact Nat.not_le_of_gt (hwf.lt_of_mem_children hc) (h.start_le id (by simp))
  · rw [hparent] at hcp
    cases hcp
    exact (List.nodup_append.1 h.nodup).2.2 id hp id List.mem_cons_self rfl

theorem expand (hwf : t.WellFormed) (h : Walk t start visited (id :: stack)) :
    Walk t start (id :: visited) (t.children id ++ stack) := by
  have hpop : Walk t start (id :: visited) stack := h.pop
  have hperm : (id :: visited ++ (t.children id ++ stack)).Perm
      (t.children id ++ (id :: visited ++ stack)) := List.perm_append_comm_assoc _ _ _
  have hid : start ≤ id := h.start_le id (by simp)
  refine ⟨hperm.nodup_iff.2 (List.nodup_append.2 ⟨hwf.nodup_children id, hpop.nodup, ?_⟩),
    fun x hx => ?_, fun x hx => ?_, fun x hx => ?_⟩
  · rintro c hc _ hx rfl
    exact h.not_mem_of_mem_children hwf hc (List.perm_middle.mem_iff.2 hx)
  · rcases List.mem_append.1 (hperm.mem_iff.1 hx) with hc | hx
    · exact hwf.lt_size_of_mem_children hc
    · exact hpop.lt_size x hx
  · rcases List.mem_append.1 (hperm.mem_iff.1 hx) with hc | hx
    · exact Nat.le_trans hid (Nat.le_of_lt (hwf.lt_of_mem_children hc))
    · exact hpop.start_le x hx
  · rcases List.mem_append.1 (hperm.mem_iff.1 hx) with hc | hx
    · exact Or.inr ⟨id, List.mem_cons_self, hwf.mem_children_iff.1 hc⟩
    · exact hpop.parent_mem x hx

/-- There are no more nodes on the way than in the tree. -/
theorem length_le (h : Walk t start visited stack) : visited.length + stack.length ≤ t.size := by
  have hsub : visited ++ stack ⊆ List.range t.size := fun x hx =>
    List.mem_range.2 (h.lt_size x hx)
  calc visited.length + stack.length = (visited ++ stack).length := List.length_append.symm
    _ ≤ (List.range t.size).length := (h.nodup.subperm hsub).length_le
    _ = t.size := List.length_range

/-- The walk down comes to its end if the steps that are left and the nodes that were visited are
together as many as the nodes of the tree. -/
theorem exists_drain (hwf : t.WellFormed) (h : Walk t start visited stack) {steps : Nat}
    (hsteps : t.size ≤ steps + visited.length) : ∃ out, t.drain steps stack = some out := by
  induction steps generalizing visited stack with
  | zero =>
    cases stack with
    | nil => exact ⟨[], rfl⟩
    | cons id stack =>
      have hlen := h.length_le
      rw [List.length_cons] at hlen
      omega
  | succ steps ih =>
    cases stack with
    | nil => exact ⟨[], rfl⟩
    | cons id stack =>
      have hlen : t.size ≤ steps + (id :: visited).length := by
        rw [List.length_cons]
        omega
      rcases kind_cases t id with ⟨tok, ht⟩ | hg | hf
      · obtain ⟨out, hout⟩ := ih h.pop hlen
        exact ⟨id :: out, by rw [drain_token ht, hout]; rfl⟩
      · rw [drain_group hg]
        exact ih (h.expand hwf) hlen
      · have hid := contains_iff.2 (h.lt_size id (by simp))
        rw [hf] at hid
        cases hid

end Walk

/-! ### The recursion over children -/

namespace WellFormed

theorem drain_singleton (h : t.WellFormed) {id : NodeId} (hid : id < t.size) :
    t.drain t.size [id] = some (t.flatten id) := by
  obtain ⟨out, hout⟩ := (Walk.single hid).exists_drain h (Nat.le_add_right t.size _)
  rw [flatten, if_pos (contains_iff.2 hid), hout]
  rfl

theorem exists_drain_eq_flatMap (h : t.WellFormed) {ids : List NodeId}
    (hids : ∀ id ∈ ids, id < t.size) : ∃ n, t.drain n ids = some (ids.flatMap t.flatten) := by
  induction ids with
  | nil => exact ⟨0, rfl⟩
  | cons id ids ih =>
    obtain ⟨n, hn⟩ := ih fun x hx => hids x (List.mem_cons_of_mem _ hx)
    exact ⟨t.size + n, drain_append (h.drain_singleton (hids id List.mem_cons_self)) hn⟩

/-- **The tokens below a group are those below its children, from left to right.** -/
theorem flatten_eq_flatMap (h : t.WellFormed) {id : NodeId} (hg : t.isGroup id = true) :
    t.flatten id = (t.children id).flatMap t.flatten := by
  obtain ⟨n, hn⟩ := h.exists_drain_eq_flatMap fun c hc => h.lt_size_of_mem_children (p := id) hc
  have hid : id < t.size := contains_iff.1 (contains_of_isGroup hg)
  refine drain_unique (h.drain_singleton hid) (n := n + 1) ?_
  rw [drain_group hg, List.append_nil, hn]

/-- Induction from the leaves: what holds of tokens and of numbers that name nothing, and what
groups inherit from their children, holds of every number. -/
theorem induction_children (h : t.WellFormed) {P : NodeId → Prop}
    (token : ∀ id tok, t.token? id = some tok → P id)
    (group : ∀ id, t.isGroup id = true → (∀ c ∈ t.children id, P c) → P id)
    (foreign : ∀ id, t.contains id = false → P id) (id : NodeId) : P id := by
  induction hk : t.size - id using Nat.strongRecOn generalizing id with
  | ind k ih =>
    rcases kind_cases t id with ⟨tok, ht⟩ | hg | hf
    · exact token id tok ht
    · refine group id hg fun c hc => ih (t.size - c) ?_ c rfl
      rw [← hk]
      exact Nat.sub_lt_sub_left (contains_iff.1 (contains_of_isGroup hg)) (h.lt_of_mem_children hc)
    · exact foreign id hf

/-! ### Walks down and walks up -/

theorem parent_mem_ancestors (h : t.WellFormed) {id a p : NodeId} (ha : a ∈ id :: t.ancestors id)
    (hp : t.parent? a = some p) : p ∈ t.ancestors id := by
  induction id using Nat.strongRecOn with
  | ind id ih =>
    rcases List.mem_cons.1 ha with rfl | ha
    · rw [h.ancestors_eq hp]
      exact List.mem_cons_self
    · cases hq : t.parent? id with
      | none =>
        rw [ancestors_eq_nil hq] at ha
        cases ha
      | some q =>
        rw [h.ancestors_eq hq] at ha ⊢
        exact List.mem_cons_of_mem _ (ih q (h.lt_of_parent? hq) ha)

/-- A walk up does not come to two children of one group. -/
theorem eq_of_parent?_eq (h : t.WellFormed) {id a b p : NodeId} (ha : a ∈ id :: t.ancestors id)
    (hb : b ∈ id :: t.ancestors id) (hap : t.parent? a = some p) (hbp : t.parent? b = some p) :
    a = b := by
  -- If one of the two comes later, it comes at or behind the common parent, which is smaller.
  have key : ∀ {x y : NodeId}, t.parent? x = some p → t.parent? y = some p →
      y ∈ x :: t.ancestors x → x = y := by
    intro x y hx hy hmem
    rcases List.mem_cons.1 hmem with rfl | hmem
    · rfl
    · rw [h.ancestors_eq hx] at hmem
      have hlt : p < y := h.lt_of_parent? hy
      rcases List.mem_cons.1 hmem with rfl | hmem
      · exact absurd hlt (Nat.lt_irrefl _)
      · exact absurd (Nat.lt_trans hlt (h.lt_of_mem_ancestors hmem)) (Nat.lt_irrefl _)
  induction id using Nat.strongRecOn with
  | ind id ih =>
    rcases List.mem_cons.1 ha with rfl | ha'
    · exact key hap hbp hb
    rcases List.mem_cons.1 hb with rfl | hb'
    · exact (key hbp hap ha).symm
    cases hq : t.parent? id with
    | none =>
      rw [ancestors_eq_nil hq] at ha'
      cases ha'
    | some q =>
      rw [h.ancestors_eq hq] at ha' hb'
      exact ih q (h.lt_of_parent? hq) ha' hb'

/-- The tokens below a node are a segment of those below every group around it. -/
theorem flatten_isInfix (h : t.WellFormed) {id g : NodeId} (hg : g ∈ id :: t.ancestors id) :
    t.flatten id <:+: t.flatten g := by
  induction id using Nat.strongRecOn with
  | ind id ih =>
    rcases List.mem_cons.1 hg with rfl | hg
    · exact List.infix_rfl
    · cases hp : t.parent? id with
      | none =>
        rw [ancestors_eq_nil hp] at hg
        cases hg
      | some p =>
        rw [h.ancestors_eq hp] at hg
        refine List.IsInfix.trans ?_ (ih p (h.lt_of_parent? hp) hg)
        rw [h.flatten_eq_flatMap (h.isGroup_of_parent? hp)]
        exact List.infix_flatMap_of_mem (h.mem_children_iff.2 hp) t.flatten

theorem root_mem_ancestors (h : t.WellFormed) {id : NodeId} (hid : id < t.size)
    (hne : id ≠ root) : root ∈ t.ancestors id :=
  List.mem_of_getLast? (h.getLast?_ancestors hid hne)

theorem flatten_isInfix_tokens (h : t.WellFormed) (id : NodeId) : t.flatten id <:+: t.tokens := by
  cases hc : t.contains id with
  | false =>
    rw [flatten_eq_nil_of_not_contains hc]
    exact List.nil_infix
  | true =>
    refine h.flatten_isInfix ?_
    by_cases hne : id = root
    · exact List.mem_cons.2 (Or.inl hne.symm)
    · exact List.mem_cons_of_mem _ (h.root_mem_ancestors (contains_iff.1 hc) hne)

theorem mem_ancestors_of_mem_flatten (h : t.WellFormed) {id g : NodeId}
    (hmem : id ∈ t.flatten g) : (t.token? id).isSome = true ∧ g ∈ id :: t.ancestors id := by
  induction g using h.induction_children with
  | token g tok htok =>
    rw [flatten_eq_singleton_of_token? htok, List.mem_singleton] at hmem
    rw [hmem, htok]
    exact ⟨rfl, List.mem_cons_self⟩
  | group g hg ih =>
    rw [h.flatten_eq_flatMap hg, List.mem_flatMap] at hmem
    obtain ⟨c, hc, hmem⟩ := hmem
    obtain ⟨htok, hup⟩ := ih c hc hmem
    exact ⟨htok, List.mem_cons_of_mem _ (h.parent_mem_ancestors hup (h.mem_children_iff.1 hc))⟩
  | foreign g hf =>
    rw [flatten_eq_nil_of_not_contains hf] at hmem
    cases hmem

/-- **A token is below a node just if the walk up from the token comes to the node.** -/
theorem mem_flatten_iff (h : t.WellFormed) {id g : NodeId} :
    id ∈ t.flatten g ↔ (t.token? id).isSome = true ∧ g ∈ id :: t.ancestors id := by
  refine ⟨h.mem_ancestors_of_mem_flatten, fun ⟨htok, hg⟩ => ?_⟩
  obtain ⟨tok, htok⟩ := Option.isSome_iff_exists.1 htok
  refine (h.flatten_isInfix hg).subset ?_
  rw [flatten_eq_singleton_of_token? htok]
  exact List.mem_singleton_self id

/-- No token is listed twice: the children of a group have no tokens in common. -/
theorem nodup_flatten (h : t.WellFormed) (id : NodeId) : (t.flatten id).Nodup := by
  induction id using h.induction_children with
  | token id tok htok =>
    rw [flatten_eq_singleton_of_token? htok]
    exact List.nodup_singleton id
  | group id hg ih =>
    rw [h.flatten_eq_flatMap hg, List.nodup_flatMap]
    refine ⟨ih, (h.nodup_children id).imp_of_mem fun {a b} ha hb hne x hxa hxb => hne ?_⟩
    exact h.eq_of_parent?_eq (h.mem_flatten_iff.1 hxa).2 (h.mem_flatten_iff.1 hxb).2
      (h.mem_children_iff.1 ha) (h.mem_children_iff.1 hb)
  | foreign id hf =>
    rw [flatten_eq_nil_of_not_contains hf]
    exact List.nodup_nil

theorem nodup_tokens (h : t.WellFormed) : t.tokens.Nodup :=
  h.nodup_flatten root

/-- Document order lists just the tokens of the tree. -/
theorem mem_tokens_iff (h : t.WellFormed) {id : NodeId} :
    id ∈ t.tokens ↔ (t.token? id).isSome = true := by
  rw [tokens, h.mem_flatten_iff, and_iff_left_iff_imp]
  intro htok
  have hid : t.contains id = true := by rw [contains_eq_isGroup_or_isSome, htok, Bool.or_true]
  have hne : id ≠ root := by
    rintro rfl
    rw [token?_of_isGroup h.isGroup_root] at htok
    cases htok
  exact List.mem_cons_of_mem _ (h.root_mem_ancestors (contains_iff.1 hid) hne)

end WellFormed

end Tree

end TokenHighlight
