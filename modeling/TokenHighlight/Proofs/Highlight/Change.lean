import Mathlib.Logic.Relation
import TokenHighlight.Highlight.Operation
import TokenHighlight.Proofs.Tree.Display

/-!
# What operations are made of

A dozen operations change the highlights of a tree, most of them in loops, and some call others. All
they ever do is one of five changes: marking a token, unmarking one, unmarking all, marking the
partner of a brace together with its flag, and taking another palette. `Operation.run_changes` says
so once, so that an invariant of all operations is five small proofs, and a new operation costs one
case here.

What a change does to a token is stated by `token?`, as everything else in later proofs is: the
shape of the tree is never touched, and of a token only what is displayed.

## Main definitions

* `Highlights.SameAt` — two states agree at a number
* `Highlights.Change`, `Highlights.Changes` — one change, and any number of them

## Main results

* `Highlights.tree_mark`, `Highlights.token?_mark`, `Highlights.token?_unmarkAll` — the tree behind
  a change
* `Highlights.Change.tree_induction`, `Highlights.Changes.cleared_eq` — changes write display
  attributes only
* `Highlights.ext_of_token?` — equality of states, token by token
* `Highlights.markAll_congr` — in which order tokens are marked does not matter
* `Operation.run_changes` — operations consist of changes
-/

namespace TokenHighlight

namespace Highlights

variable {h a b : Highlights}

/-! ### Two states -/

/-- Two states agree at a number. It names the same token in both, down to what is displayed, or no
token in either; and it is in both sets or in neither. -/
def SameAt (a b : Highlights) (x : NodeId) : Prop :=
  b.tree.token? x = a.tree.token? x ∧ b.isHighlighted x = a.isHighlighted x

theorem SameAt.trans {d : Highlights} {x : NodeId} (hab : a.SameAt b x) (hbd : b.SameAt d x) :
    a.SameAt d x :=
  ⟨hbd.1.trans hab.1, hbd.2.trans hab.2⟩

/-- **Equality of states**, token by token and number by number, for the same document. -/
theorem ext_of_token? (hcleared : a.tree.cleared = b.tree.cleared)
    (htoken : ∀ id, a.tree.token? id = b.tree.token? id)
    (hset : ∀ id, a.isHighlighted id = b.isHighlighted id) (hpalette : a.palette = b.palette) :
    a = b := by
  obtain ⟨tree, marked, palette⟩ := a
  obtain ⟨tree', marked', palette'⟩ := b
  obtain rfl : tree = tree' := Tree.ext_of_cleared hcleared htoken
  obtain rfl : marked = marked' := Std.ExtTreeSet.ext_contains hset
  obtain rfl : palette = palette' := hpalette
  rfl

/-! ### Single changes -/

/-- The changes that operations are made of. -/
inductive Change (h : Highlights) : Highlights → Prop
  | mark (id : NodeId) (c : Color) : Change h (h.mark id c)
  | unmark (id : NodeId) : Change h (h.unmark id)
  | unmarkAll : Change h h.unmarkAll
  /-- Marks a token and flags it as the partner of another. -/
  | pair (id : NodeId) (c : Color) (hid : (h.tree.token? id).isSome = true) :
      Change h ((h.setMatching id).mark id c)
  | recolor (p : Palette) : Change h { h with palette := p }

/-- A mark is a write, also under a number that names no token, where neither does anything. -/
theorem tree_mark (h : Highlights) (id : NodeId) (c : Color) :
    (h.mark id c).tree = h.tree.modifyToken id fun tok => { tok with highlight := some c } := by
  rw [mark]
  split
  · rfl
  · next ht => exact (Tree.modifyToken_eq_self ht _).symm

theorem token?_mark (h : Highlights) (id other : NodeId) (c : Color) :
    (h.mark id c).tree.token? other =
      if id = other then (h.tree.token? other).map fun tok => { tok with highlight := some c }
      else h.tree.token? other := by
  rw [tree_mark]
  exact Tree.token?_modifyToken _ _ _ _

theorem token?_unmarkAll (h : Highlights) (other : NodeId) :
    h.unmarkAll.tree.token? other =
      if h.isHighlighted other = true then (h.tree.token? other).map Token.cleared
      else h.tree.token? other := by
  have hmem : other ∈ h.marked.toList ↔ h.isHighlighted other = true := by
    rw [Std.ExtTreeSet.mem_toList]
    rfl
  simp only [unmarkAll, Tree.token?_foldl_modifyToken Token.cleared_cleared, hmem]

/-- Unmarking all takes from the tokens in the set whatever they show. -/
theorem shows_unmarkAll {p : Token → Bool} (hp : ∀ tok : Token, p tok.cleared = false)
    (h : Highlights) (id : NodeId) :
    h.unmarkAll.tree.shows p id = (!h.isHighlighted id && h.tree.shows p id) := by
  rw [Tree.shows, Tree.shows, token?_unmarkAll]
  cases h.isHighlighted id <;> cases h.tree.token? id <;> simp [hp]

/-- **Changes write display attributes only.** What survives such writes survives a change. -/
theorem Change.tree_induction {P : Tree → Prop}
    (hwrite : ∀ t id f, (∀ tok : Token, (f tok).cleared = tok.cleared) → P t →
      P (t.modifyToken id f)) (hc : Change a b) (ha : P a.tree) : P b.tree := by
  have hmark : ∀ (h : Highlights) (id : NodeId) (c : Color), P h.tree → P (h.mark id c).tree := by
    intro h id c hP
    rw [tree_mark]
    exact hwrite _ _ _ (fun _ => rfl) hP
  have hclear : ∀ (ids : List NodeId) (t : Tree), P t →
      P (ids.foldl (fun t id => t.modifyToken id Token.cleared) t) := by
    intro ids
    induction ids with
    | nil => exact fun _ hP => hP
    | cons id ids ih => exact fun t hP => ih _ (hwrite t id _ Token.cleared_cleared hP)
  cases hc with
  | mark id c => exact hmark a id c ha
  | unmark id => exact hwrite _ _ _ Token.cleared_cleared ha
  | unmarkAll =>
    exact hclear a.marked.toList a.tree ha
  | pair id c _ => exact hmark _ id c (hwrite _ _ _ (fun _ => rfl) ha)
  | recolor p => exact ha

/-! ### Many changes -/

/-- One state comes from another by changes. -/
def Changes : Highlights → Highlights → Prop :=
  Relation.ReflTransGen Change

theorem Changes.refl (h : Highlights) : Changes h h :=
  Relation.ReflTransGen.refl

theorem Changes.trans {c : Highlights} (hab : Changes a b) (hbc : Changes b c) : Changes a c :=
  Relation.ReflTransGen.trans hab hbc

theorem Change.changes (hc : Change a b) : Changes a b :=
  Relation.ReflTransGen.single hc

/-- What every change keeps is kept by all of them together. -/
theorem Changes.preserves {P : Highlights → Prop} (hP : ∀ {a b}, Change a b → P a → P b)
    (hc : Changes a b) (ha : P a) : P b := by
  induction hc with
  | refl => exact ha
  | tail _ hstep ih => exact hP hstep ih

/-- Changes do not alter the cleared tree. -/
theorem Changes.cleared_eq (hc : Changes a b) : b.tree.cleared = a.tree.cleared := by
  refine hc.preserves (P := fun h => h.tree.cleared = a.tree.cleared) (fun hc ha => ?_) rfl
  exact hc.tree_induction (P := fun t => t.cleared = a.tree.cleared)
    (fun t id _ hf ht => (t.cleared_modifyToken id hf).trans ht) ha

/-- A loop whose body consists of changes consists of changes. -/
theorem changes_foldl {α : Type} {body : Highlights → α → Highlights}
    (hbody : ∀ h x, Changes h (body h x)) (xs : List α) (h : Highlights) :
    Changes h (xs.foldl body h) := by
  induction xs generalizing h with
  | nil => exact Changes.refl h
  | cons x xs ih => exact (hbody h x).trans (ih (body h x))

/-! ### Marking several tokens -/

theorem changes_markAll (h : Highlights) (ids : List NodeId) (c : Color) :
    Changes h (h.markAll ids c) :=
  changes_foldl (fun _ id => (Change.mark id c).changes) ids h

/-- Behind a loop of marks a number is in the set if it was before, or if it is listed and names a
token. -/
theorem isHighlighted_markAll (h : Highlights) (ids : List NodeId) (c : Color) (id : NodeId) :
    (h.markAll ids c).isHighlighted id =
      (h.isHighlighted id || (decide (id ∈ ids) && (h.tree.token? id).isSome)) := by
  induction ids generalizing h with
  | nil => simp [markAll]
  | cons x ids ih =>
    have hsome : ((h.mark x c).tree.token? id).isSome = (h.tree.token? id).isSome := by
      rw [tree_mark, Tree.isSome_token?_modifyToken]
    rw [markAll, List.foldl_cons]
    refine (ih (h.mark x c)).trans ?_
    rw [isHighlighted_mark, hsome, Bool.or_assoc]
    by_cases hx : x = id
    · subst hx
      cases (h.tree.token? x).isSome <;> simp
    · simp [hx, Ne.symm hx]

theorem tree_markAll (h : Highlights) (ids : List NodeId) (c : Color) :
    (h.markAll ids c).tree =
      ids.foldl (fun t id => t.modifyToken id fun tok => { tok with highlight := some c })
        h.tree := by
  induction ids generalizing h with
  | nil => rfl
  | cons x ids ih =>
    rw [List.foldl_cons, ← tree_mark]
    exact ih (h.mark x c)

theorem token?_markAll (h : Highlights) (ids : List NodeId) (c : Color) (id : NodeId) :
    (h.markAll ids c).tree.token? id =
      if id ∈ ids then (h.tree.token? id).map fun tok => { tok with highlight := some c }
      else h.tree.token? id := by
  rw [tree_markAll]
  refine Tree.token?_foldl_modifyToken ?_ ids h.tree id
  exact fun _ => rfl

theorem isSome_token?_markAll (h : Highlights) (ids : List NodeId) (c : Color) (id : NodeId) :
    ((h.markAll ids c).tree.token? id).isSome = (h.tree.token? id).isSome := by
  rw [token?_markAll]
  split
  · exact Option.isSome_map
  · rfl

/-- A token that is listed has the color, and is in the set. -/
theorem markAll_of_mem {ids : List NodeId} {id : NodeId} {tok : Token}
    (htok : h.tree.token? id = some tok) (hid : id ∈ ids) (c : Color) :
    (h.markAll ids c).isHighlighted id = true ∧
      (h.markAll ids c).tree.token? id = some { tok with highlight := some c } := by
  constructor
  · rw [isHighlighted_markAll, htok, decide_eq_true hid]
    exact Bool.or_true _
  · rw [token?_markAll, if_pos hid, htok]
    rfl

/-- Whatever is not listed stays as it is. -/
theorem sameAt_markAll {ids : List NodeId} {x : NodeId} (hx : x ∉ ids) (c : Color) :
    h.SameAt (h.markAll ids c) x := by
  rw [SameAt, token?_markAll, isHighlighted_markAll, if_neg hx, decide_eq_false hx, Bool.false_and,
    Bool.or_false]
  exact ⟨rfl, rfl⟩

/-- It does not matter in which order tokens get a color, how often, and what else is listed. -/
theorem markAll_congr_of_tokens {ids ids' : List NodeId}
    (hids : ∀ id, (h.tree.token? id).isSome = true → (id ∈ ids ↔ id ∈ ids')) (c : Color) :
    h.markAll ids c = h.markAll ids' c := by
  refine ext_of_token? ?_ (fun id => ?_) (fun id => ?_) ?_
  · rw [(changes_markAll h ids c).cleared_eq, (changes_markAll h ids' c).cleared_eq]
  · rw [token?_markAll, token?_markAll]
    cases htok : h.tree.token? id with
    | none => simp
    | some tok => simp only [hids id (by rw [htok]; rfl)]
  · rw [isHighlighted_markAll, isHighlighted_markAll]
    cases htok : (h.tree.token? id).isSome with
    | false => simp
    | true => simp only [hids id htok]
  · rw [palette_markAll, palette_markAll]

/-- It does not matter in which order tokens get a color, and how often. -/
theorem markAll_congr {ids ids' : List NodeId} (hids : ∀ id, id ∈ ids ↔ id ∈ ids') (c : Color) :
    h.markAll ids c = h.markAll ids' c :=
  markAll_congr_of_tokens (fun id _ => hids id) c

/-! ### Operations -/

theorem changes_addVarnodes (h : Highlights) (parent : NodeId) (vs : List UInt64) (c : Color)
    (special : Option SpecialUse) (sc : Color) :
    Changes h (h.addVarnodes parent vs c special sc) := by
  refine changes_foldl (fun h id => ?_) _ h
  rw [markVarnode]
  cases h.tree.token? id with
  | none => exact Changes.refl h
  | some tok =>
    have huse : Changes h (if tok.usesVarnode vs then h.mark id c else h) := by
      split
      · exact (Change.mark id c).changes
      · exact Changes.refl h
    dsimp only
    split
    · exact huse.trans (Change.mark id sc).changes
    · exact huse

theorem changes_fill (h : Highlights) : Changes h h.fill.1 := by
  -- The count that runs along is no part of the state, so the loop is taken by itself.
  have hloop : ∀ (gaps : List (NodeId × Color)) (state : Highlights × Nat),
      Changes state.1 (gaps.foldl fillOne state).1 := by
    intro gaps
    induction gaps with
    | nil => exact fun state => Changes.refl _
    | cons gap gaps ih =>
      intro state
      have hone : Changes state.1 (fillOne state gap).1 := by
        rw [fillOne]
        split
        · split
          · exact Changes.refl _
          · exact (Change.mark gap.1 gap.2).changes
        · exact Changes.refl _
      exact hone.trans (ih _)
  exact hloop h.gaps (h, 0)

theorem changes_highlightBrace (h : Highlights) (lookup : BraceLookup) (id : NodeId) (c : Color) :
    Changes h (h.highlightBrace lookup id c).1 := by
  rw [highlightBrace]
  split
  · next partner hp =>
    have htok : (h.tree.token? partner).isSome = true := by
      rw [bracePartner?] at hp
      split at hp
      · exact (Option.filter_eq_some_iff.1 hp).2
      · cases hp
    exact (Change.pair partner c htok).changes
  · exact Changes.refl h

theorem changes_select (h : Highlights) (lookup : BraceLookup) (id : NodeId) :
    Changes h (h.select lookup id) := by
  have hmark : Changes h (h.unmarkAll.mark id h.unmarkAll.palette.highlight) :=
    (Change.unmarkAll.changes).trans (Change.mark id _).changes
  exact (hmark.trans (changes_markAll _ _ _)).trans (changes_highlightBrace _ lookup id _)

end Highlights

open Highlights in
/-- **Every operation consists of changes.** -/
theorem Operation.run_changes (op : Operation) (h : Highlights) : Changes h (op.run h).1 := by
  cases op with
  | setDefault role c => exact (Change.recolor _).changes
  | overlayPalette o => exact (Change.recolor _).changes
  | setHighlight id c => exact (Change.mark id c).changes
  | clearHighlight id => exact (Change.unmark id).changes
  | clearAll => exact Change.unmarkAll.changes
  | addTokens ids c => exact changes_markAll h ids c
  | addVarnodes parent vs c special sc => exact changes_addVarnodes h parent vs c special sc
  | addOps parent ops c => exact changes_markAll h _ c
  | select id lookup => exact changes_select h lookup id
  | fill => exact changes_fill h
  | highlightBracket id c => exact changes_markAll h _ c
  | highlightBrace id c lookup => exact changes_highlightBrace h lookup id c

end TokenHighlight
