import Mathlib.Data.List.Induction
import Mathlib.Data.List.Nodup
import TokenHighlight.Proofs.Tree.Growth

/-!
# Well-formed trees

That one node is the parent of another is written down twice, once as a link of the child and once
in the list of the parent. `WellFormed` says that the two agree, that links lead to smaller numbers
and end at the root, and that lists are sorted. It is kept by every edit, so it holds of every tree
that comes about, in whatever order its nodes were added.

The links being downward in number is what makes all walks end: the walk up in `Tree.ancestors`
never uses up the steps it is given, and so satisfies the equation one would like to define it by.

## Main definitions

* `Tree.WellFormed`

## Main results

* `Tree.WellFormed.grown`, `Tree.WellFormed.modifyToken` — what edits keep
* `Tree.Reachable.wellFormed`
* `Tree.WellFormed.ancestors_eq` — the ancestors of a node are its parent and the parent's ancestors
* `Tree.links_agree` — the whole contract of growing a tree
-/

namespace TokenHighlight

namespace Tree

/-- Parents and children fit together, and every way up leads to the root. -/
structure WellFormed (t : Tree) : Prop where
  isGroup_root : t.isGroup root = true
  parent?_root : t.parent? root = none
  lt_of_parent? : ∀ {id p : NodeId}, t.parent? id = some p → p < id
  exists_parent? : ∀ {id : NodeId}, id < t.size → id ≠ root → ∃ p, t.parent? id = some p
  mem_children_iff : ∀ {id p : NodeId}, id ∈ t.children p ↔ t.parent? id = some p
  pairwise_children : ∀ p, (t.children p).Pairwise (· < ·)

variable {t : Tree}

theorem lt_size_of_parent? {id p : NodeId} (h : t.parent? id = some p) : id < t.size := by
  rw [parent?, Option.bind_eq_some_iff] at h
  obtain ⟨_, hn, _⟩ := h
  exact (Array.getElem?_eq_some_iff.1 hn).1

theorem isGroup_of_mem_children {id p : NodeId} (h : id ∈ t.children p) : t.isGroup p = true := by
  rw [children] at h
  split at h
  · next hn => rw [isGroup, hn]
  · simp at h

/-! ### What edits keep -/

theorem wellFormed_empty : empty.WellFormed where
  isGroup_root := rfl
  parent?_root := rfl
  lt_of_parent? h := by
    have hlt := lt_size_of_parent? h
    rw [Nat.lt_one_iff.1 hlt] at h
    cases h
  exists_parent? hlt hne := absurd (Nat.lt_one_iff.1 hlt) hne
  mem_children_iff {id p} := by
    have hc : empty.children p = [] := by
      cases p <;> rfl
    have hp : empty.parent? id = none := by
      cases id <;> rfl
    simp [hc, hp]
  pairwise_children p := by
    cases p <;> exact List.Pairwise.nil

namespace WellFormed

theorem root_lt_size (h : t.WellFormed) : root < t.size :=
  contains_iff.1 (contains_of_isGroup h.isGroup_root)

theorem isGroup_of_parent? (h : t.WellFormed) {id p : NodeId} (hp : t.parent? id = some p) :
    t.isGroup p = true :=
  isGroup_of_mem_children (h.mem_children_iff.2 hp)

theorem lt_size_of_mem_children (h : t.WellFormed) {id p : NodeId} (hm : id ∈ t.children p) :
    id < t.size :=
  lt_size_of_parent? (h.mem_children_iff.1 hm)

theorem lt_of_mem_children (h : t.WellFormed) {id p : NodeId} (hm : id ∈ t.children p) : p < id :=
  h.lt_of_parent? (h.mem_children_iff.1 hm)

theorem nodup_children (h : t.WellFormed) (p : NodeId) : (t.children p).Nodup :=
  (h.pairwise_children p).imp Nat.ne_of_lt

/-- A node with a parent stands once in the list of that parent and in no other list. -/
theorem count_children (h : t.WellFormed) {id p : NodeId} (hp : t.parent? id = some p)
    (q : NodeId) : (t.children q).count id = if q = p then 1 else 0 := by
  split
  · next hq =>
    exact List.count_eq_one_of_mem (h.nodup_children q) (h.mem_children_iff.2 (hq ▸ hp))
  · next hq =>
    refine List.count_eq_zero_of_not_mem fun hm => hq ?_
    rw [h.mem_children_iff, hp] at hm
    exact (Option.some.inj hm).symm

/-- Adding a node under a group keeps a tree well formed. The new number is greater than all others,
so it may stand last in its list. -/
theorem grown (h : t.WellFormed) {a : Addition} (hg : t.isGroup a.parent = true) :
    (t.grown a).WellFormed := by
  have hx : Extends t (t.grown a) a := extends_grown hg
  have hroot : root ≠ t.size := Nat.ne_of_lt h.root_lt_size
  have hparent : a.parent < t.size := contains_iff.1 (contains_of_isGroup hg)
  refine ⟨?_, ?_, ?_, ?_, ?_, ?_⟩
  · rw [hx.isGroup, if_neg hroot]
    exact h.isGroup_root
  · rw [hx.parent?, if_neg hroot]
    exact h.parent?_root
  · intro id p hp
    rw [hx.parent?] at hp
    split at hp
    · next hid =>
      cases hp
      exact hid ▸ hparent
    · exact h.lt_of_parent? hp
  · intro id hlt hne
    rw [hx.size] at hlt
    rw [hx.parent?]
    split
    · exact ⟨a.parent, rfl⟩
    · next hid => exact h.exists_parent? (Nat.lt_of_le_of_ne (Nat.le_of_lt_succ hlt) hid) hne
  · intro id p
    have hfresh : t.size ∉ t.children p := fun hm =>
      Nat.lt_irrefl _ (h.lt_size_of_mem_children hm)
    rw [hx.children, hx.parent?]
    by_cases hid : id = t.size
    · subst hid
      by_cases hp : p = a.parent
      · simp [hp]
      · simp [hp, hfresh, Ne.symm hp]
    · by_cases hp : p = a.parent <;> simp [hp, hid, h.mem_children_iff]
  · intro p
    rw [hx.children]
    split
    · refine List.pairwise_append.2 ⟨h.pairwise_children p, List.pairwise_singleton _ _, ?_⟩
      intro id hm other hother
      rw [List.mem_singleton] at hother
      exact hother ▸ h.lt_size_of_mem_children hm
    · exact h.pairwise_children p

theorem add (h : t.WellFormed) (a : Addition) : (t.add a).WellFormed := by
  rcases add_cases t a with ⟨hg, ht⟩ | ht
  · rw [ht]
    exact h.grown hg
  · rw [ht]
    exact h

theorem modifyToken (h : t.WellFormed) (id : NodeId) (f : Token → Token) :
    (t.modifyToken id f).WellFormed where
  isGroup_root := by rw [isGroup_modifyToken]; exact h.isGroup_root
  parent?_root := by rw [parent?_modifyToken]; exact h.parent?_root
  lt_of_parent? hp := by rw [parent?_modifyToken] at hp; exact h.lt_of_parent? hp
  exists_parent? hlt hne := by
    rw [size_modifyToken] at hlt
    rw [parent?_modifyToken]
    exact h.exists_parent? hlt hne
  mem_children_iff := by
    intro id p
    rw [children_modifyToken, parent?_modifyToken]
    exact h.mem_children_iff
  pairwise_children p := by rw [children_modifyToken]; exact h.pairwise_children p

end WellFormed

theorem wellFormed_edited (edits : List Edit) : (edited edits).WellFormed := by
  induction edits using List.reverseRecOn with
  | nil => exact wellFormed_empty
  | append_singleton edits e ih =>
    rw [edited_append_singleton]
    cases e with
    | add a => exact ih.add a
    | write id f => exact ih.modifyToken id f

/-- Every tree that comes about is well formed. -/
theorem Reachable.wellFormed (h : t.Reachable) : t.WellFormed := by
  obtain ⟨edits, rfl⟩ := h
  exact wellFormed_edited edits

/-! ### The walk up -/

theorem climb_of_parent?_eq_none {id : NodeId} (hp : t.parent? id = none) (steps : Nat) :
    t.climb steps id = [] := by
  cases steps with
  | zero => rfl
  | succ steps => rw [climb, hp]

theorem ancestors_eq_nil {id : NodeId} (hp : t.parent? id = none) : t.ancestors id = [] :=
  climb_of_parent?_eq_none hp t.size

namespace WellFormed

/-- Numbers fall along the walk up, so its steps are enough as soon as there are as many as the
number it starts from. -/
theorem climb_eq (h : t.WellFormed) {m n : Nat} {id : NodeId} (hm : id ≤ m) (hn : id ≤ n) :
    t.climb m id = t.climb n id := by
  induction m generalizing id n with
  | zero =>
    have hid : id = root := Nat.le_zero.1 hm
    rw [hid, climb_of_parent?_eq_none h.parent?_root, climb_of_parent?_eq_none h.parent?_root]
  | succ m ih =>
    cases hp : t.parent? id with
    | none => rw [climb_of_parent?_eq_none hp, climb_of_parent?_eq_none hp]
    | some p =>
      have hlt : p < id := h.lt_of_parent? hp
      cases n with
      | zero => exact absurd (Nat.lt_of_lt_of_le hlt hn) (Nat.not_lt_zero p)
      | succ n =>
        rw [climb, climb, hp]
        exact congrArg (p :: ·) (ih (Nat.le_of_lt_succ (Nat.lt_of_lt_of_le hlt hm))
          (Nat.le_of_lt_succ (Nat.lt_of_lt_of_le hlt hn)))

/-- The ancestors of a node are its parent and the ancestors of the parent. -/
theorem ancestors_eq (h : t.WellFormed) {id p : NodeId} (hp : t.parent? id = some p) :
    t.ancestors id = p :: t.ancestors p := by
  have hle : id ≤ t.size := Nat.le_of_lt (lt_size_of_parent? hp)
  calc t.ancestors id = t.climb (t.size + 1) id := h.climb_eq hle (Nat.le_succ_of_le hle)
    _ = p :: t.ancestors p := by rw [climb, hp, ancestors]

/-- The walk up never comes to an equal or a greater number. -/
theorem pairwise_ancestors (h : t.WellFormed) (id : NodeId) :
    (id :: t.ancestors id).Pairwise (· > ·) := by
  induction id using Nat.strongRecOn with
  | ind id ih =>
    cases hp : t.parent? id with
    | none =>
      rw [ancestors_eq_nil hp]
      exact List.pairwise_singleton _ _
    | some p =>
      have hlt : p < id := h.lt_of_parent? hp
      have hup := ih p hlt
      rw [h.ancestors_eq hp]
      refine List.pairwise_cons.2 ⟨fun a ha => ?_, hup⟩
      rcases List.mem_cons.1 ha with rfl | ha
      · exact hlt
      · exact Nat.lt_trans ((List.pairwise_cons.1 hup).1 a ha) hlt

theorem lt_of_mem_ancestors (h : t.WellFormed) {a id : NodeId} (ha : a ∈ t.ancestors id) : a < id :=
  (List.pairwise_cons.1 (h.pairwise_ancestors id)).1 a ha

/-- The walk up from any other node ends at the root. -/
theorem getLast?_ancestors (h : t.WellFormed) {id : NodeId} (hid : id < t.size) (hne : id ≠ root) :
    (t.ancestors id).getLast? = some root := by
  induction id using Nat.strongRecOn with
  | ind id ih =>
    obtain ⟨p, hp⟩ := h.exists_parent? hid hne
    have hlt : p < id := h.lt_of_parent? hp
    rw [h.ancestors_eq hp]
    by_cases hroot : p = root
    · rw [hroot, ancestors_eq_nil h.parent?_root]
      rfl
    · rw [List.getLast?_cons, ih p hlt (Nat.lt_trans hlt hid) hroot]
      rfl

end WellFormed

/-! ### The contract of growing a tree -/

/-- **Parents and children agree in every tree that comes about.** The root is a group without
parent. Every other node stands once in the list of its parent, which is a group with a smaller
number, and in no other list. Lists are sorted, tokens have none, and every walk up falls to the
root. Additions fail just under tokens and under numbers that name nothing, and change nothing then;
otherwise they append one node. -/
theorem links_agree (edits : List Edit) :
    let t := edited edits
    (t.isGroup root = true ∧ t.parent? root = none) ∧
    (∀ id, t.contains id = true → id ≠ root →
      ∃ p, t.parent? id = some p ∧ p < id ∧ t.isGroup p = true ∧
        ∀ q, (t.children q).count id = if q = p then 1 else 0) ∧
    (∀ q, (t.children q).Pairwise (· < ·)) ∧
    (∀ id, (t.token? id).isSome = true → t.children id = []) ∧
    (∀ id, (id :: t.ancestors id).Pairwise (· > ·)) ∧
    (∀ id, t.contains id = true → id ≠ root → (t.ancestors id).getLast? = some root) ∧
    (∀ a : Addition,
      (a.run t = .error (.unknownNode a.parent) ↔ t.size ≤ a.parent) ∧
      (a.run t = .error (.notAGroup a.parent) ↔ (t.token? a.parent).isSome = true) ∧
      (∀ e, a.run t = .error e →
        (e = .unknownNode a.parent ∨ e = .notAGroup a.parent) ∧ t.edit (.add a) = t) ∧
      (∀ id t', a.run t = .ok (id, t') →
        id = t.size ∧ Extends t t' a ∧ t.edit (.add a) = t')) := by
  intro t
  have h : t.WellFormed := wellFormed_edited edits
  refine ⟨⟨h.isGroup_root, h.parent?_root⟩, fun id hc hne => ?_, h.pairwise_children,
    fun id ht => ?_, h.pairwise_ancestors,
    fun id hc hne => h.getLast?_ancestors (contains_iff.1 hc) hne, fun a => ⟨?_, ?_, ?_, ?_⟩⟩
  · obtain ⟨p, hp⟩ := h.exists_parent? (contains_iff.1 hc) hne
    exact ⟨p, hp, h.lt_of_parent? hp, h.isGroup_of_parent? hp, fun q => h.count_children hp q⟩
  · obtain ⟨tok, htok⟩ := Option.isSome_iff_exists.1 ht
    exact children_eq_nil_of_token? htok
  · exact Addition.run_eq_unknownNode_iff
  · exact Addition.run_eq_notAGroup_iff
  · intro e he
    exact ⟨Addition.eq_of_run_eq_error he, add_of_run_eq_error he⟩
  · intro id t' ht'
    obtain ⟨hg, hid, rfl⟩ := Addition.run_eq_ok_iff.1 ht'
    exact ⟨hid, extends_grown hg, add_of_isGroup hg⟩

end Tree

end TokenHighlight
