import TokenHighlight.Proofs.Highlight.Change

/-!
# Highlighting uses

Uses are looked for and marked in one loop, token by token. Since a mark does not change what a
token refers to, the loop writes to every token what it would write if it were the only one: a color
if the token uses a variable, and another one over it if the token is the special use.

Only membership counts among the variables and operations that are asked for. Neither their order
nor how often they are named makes a difference.

## Main definitions

* `Token.withUse` — a token behind the loop

## Main results

* `Token.usesVarnode_iff`, `Token.usesOp_iff`, `Token.any_isOf_iff` — what a use is
* `Highlights.token?_addVarnodes`, `Highlights.token?_addOps` — what is shown of a token
* `Highlights.isHighlighted_foldl_markVarnode` — which tokens come into the set
* `Highlights.addVarnodes_congr`, `Highlights.addOps_congr` — only membership counts
-/

namespace TokenHighlight

namespace Token

variable {vs vs' ops ops' : List UInt64}

/-- A token with the color of the special use if it is one, else with the color of uses if it is one
of those, and else with the color that it has. -/
def withUse (vs : List UInt64) (c : Color) (special : Option SpecialUse) (sc : Color)
    (tok : Token) : Token :=
  { tok with
    highlight :=
      if special.any (·.isOf tok) then some sc
      else if tok.usesVarnode vs then some c else tok.highlight }

theorem usesVarnode_iff {tok : Token} :
    tok.usesVarnode vs = true ↔ ∃ v ∈ vs, tok.varnode = some v := by
  rw [usesVarnode, Option.any_eq_true]
  simp only [List.contains_iff_mem, and_comm]

theorem usesOp_iff {tok : Token} : tok.usesOp ops = true ↔ ∃ op ∈ ops, tok.op = some op := by
  rw [usesOp, Option.any_eq_true]
  simp only [List.contains_iff_mem, and_comm]

theorem any_isOf_iff {special : Option SpecialUse} {tok : Token} :
    special.any (·.isOf tok) = true ↔
      ∃ s ∈ special, tok.varnode = some s.varnode ∧ tok.op = some s.op := by
  simp only [Option.any_eq_true, Option.mem_def, SpecialUse.isOf, Bool.and_eq_true,
    decide_eq_true_eq]

theorem withUse_withUse (vs : List UInt64) (c : Color) (special : Option SpecialUse) (sc : Color)
    (tok : Token) :
    (tok.withUse vs c special sc).withUse vs c special sc = tok.withUse vs c special sc := by
  -- What the token refers to is the same before and behind the write.
  have hspecial : special.any (·.isOf (tok.withUse vs c special sc)) = special.any (·.isOf tok) :=
    rfl
  have huse : (tok.withUse vs c special sc).usesVarnode vs = tok.usesVarnode vs := rfl
  rw [withUse, hspecial, huse, withUse]
  split
  · rfl
  · split <;> rfl

theorem usesVarnode_congr (h : ∀ v, v ∈ vs ↔ v ∈ vs') : usesVarnode vs = usesVarnode vs' := by
  have hcontains : vs.contains = vs'.contains := by
    funext v
    rw [Bool.eq_iff_iff, List.contains_iff_mem, List.contains_iff_mem, h]
  funext tok
  rw [usesVarnode, usesVarnode, hcontains]

theorem usesOp_congr (h : ∀ op, op ∈ ops ↔ op ∈ ops') : usesOp ops = usesOp ops' := by
  have hcontains : ops.contains = ops'.contains := by
    funext op
    rw [Bool.eq_iff_iff, List.contains_iff_mem, List.contains_iff_mem, h]
  funext tok
  rw [usesOp, usesOp, hcontains]

end Token

namespace Highlights

variable {vs vs' ops ops' : List UInt64}

theorem token?_markVarnode (h : Highlights) (vs : List UInt64) (c : Color)
    (special : Option SpecialUse) (sc : Color) (id x : NodeId) :
    (h.markVarnode vs c special sc id).tree.token? x =
      if id = x then (h.tree.token? x).map (Token.withUse vs c special sc)
      else h.tree.token? x := by
  rw [markVarnode]
  by_cases hx : id = x
  · subst hx
    cases ht : h.tree.token? id with
    | none => simp [ht]
    | some tok =>
      simp only [Token.withUse, if_true, Option.map_some]
      cases tok.usesVarnode vs <;> cases special.any (·.isOf tok) <;> simp [token?_mark, ht]
  · rw [if_neg hx]
    split
    · rfl
    · cases Token.usesVarnode vs _ <;> cases Option.any _ special <;> simp [token?_mark, hx]

theorem token?_foldl_markVarnode (ids : List NodeId) (h : Highlights) (vs : List UInt64) (c : Color)
    (special : Option SpecialUse) (sc : Color) (x : NodeId) :
    (ids.foldl (fun h id => h.markVarnode vs c special sc id) h).tree.token? x =
      if x ∈ ids then (h.tree.token? x).map (Token.withUse vs c special sc)
      else h.tree.token? x := by
  induction ids generalizing h with
  | nil => rfl
  | cons id ids ih =>
    rw [List.foldl_cons, ih, token?_markVarnode]
    by_cases hx : id = x
    · subst hx
      simp [Function.comp_def, Token.withUse_withUse]
    · simp [hx, Ne.symm hx]

/-- A token comes into the set if it uses a variable or is the special use. -/
theorem isHighlighted_markVarnode (h : Highlights) (vs : List UInt64) (c : Color)
    (special : Option SpecialUse) (sc : Color) (id x : NodeId) :
    (h.markVarnode vs c special sc id).isHighlighted x =
      (h.isHighlighted x || (decide (id = x) &&
        h.tree.shows (fun tok => tok.usesVarnode vs || special.any (·.isOf tok)) x)) := by
  rw [markVarnode, Tree.shows]
  by_cases hx : id = x
  · subst hx
    cases ht : h.tree.token? id with
    | none => simp
    | some tok =>
      cases huse : tok.usesVarnode vs <;> cases hspecial : special.any (·.isOf tok) <;>
        simp [isHighlighted_mark, token?_mark, ht, huse, hspecial]
  · rw [decide_eq_false hx, Bool.false_and, Bool.or_false]
    split
    · rfl
    · cases Token.usesVarnode vs _ <;> cases Option.any _ special <;> simp [isHighlighted_mark, hx]

theorem isHighlighted_foldl_markVarnode (ids : List NodeId) (h : Highlights) (vs : List UInt64)
    (c : Color) (special : Option SpecialUse) (sc : Color) (x : NodeId) :
    (ids.foldl (fun h id => h.markVarnode vs c special sc id) h).isHighlighted x =
      (h.isHighlighted x || (decide (x ∈ ids) &&
        h.tree.shows (fun tok => tok.usesVarnode vs || special.any (·.isOf tok)) x)) := by
  induction ids generalizing h with
  | nil => simp
  | cons id ids ih =>
    -- What a token refers to is the same before and behind a mark.
    have hshows : (h.markVarnode vs c special sc id).tree.shows
          (fun tok => tok.usesVarnode vs || special.any (·.isOf tok)) x =
        h.tree.shows (fun tok => tok.usesVarnode vs || special.any (·.isOf tok)) x := by
      rw [Tree.shows, Tree.shows, token?_markVarnode]
      split
      · exact Option.any_map
      · rfl
    rw [List.foldl_cons, ih, isHighlighted_markVarnode, hshows]
    by_cases hx : id = x
    · subst hx
      cases h.tree.shows _ id <;> simp
    · simp [hx, Ne.symm hx]

/-- **What highlighting the uses of variables shows of a token.** -/
theorem token?_addVarnodes (h : Highlights) (parent : NodeId) (vs : List UInt64) (c : Color)
    (special : Option SpecialUse) (sc : Color) (x : NodeId) :
    (h.addVarnodes parent vs c special sc).tree.token? x =
      if x ∈ h.tree.flatten parent then (h.tree.token? x).map (Token.withUse vs c special sc)
      else h.tree.token? x :=
  token?_foldl_markVarnode _ h vs c special sc x

/-- **What highlighting the uses of operations shows of a token.** -/
theorem token?_addOps (h : Highlights) (parent : NodeId) (ops : List UInt64) (c : Color)
    (x : NodeId) :
    (h.addOps parent ops c).tree.token? x =
      if x ∈ h.tree.flatten parent then
        (h.tree.token? x).map fun tok =>
          { tok with highlight := if tok.usesOp ops then some c else tok.highlight }
      else h.tree.token? x := by
  simp only [addOps, token?_markAll, List.mem_filter]
  cases ht : h.tree.token? x with
  | none => simp
  | some tok => cases huse : tok.usesOp ops <;> simp [huse]

theorem palette_markVarnode (h : Highlights) (vs : List UInt64) (c : Color)
    (special : Option SpecialUse) (sc : Color) (id : NodeId) :
    (h.markVarnode vs c special sc id).palette = h.palette := by
  rw [markVarnode]
  split
  · rfl
  · dsimp only
    split <;> split <;> simp only [palette_mark]

@[simp] theorem palette_addVarnodes (h : Highlights) (parent : NodeId) (vs : List UInt64)
    (c : Color) (special : Option SpecialUse) (sc : Color) :
    (h.addVarnodes parent vs c special sc).palette = h.palette := by
  rw [addVarnodes]
  generalize h.tree.flatten parent = ids
  induction ids generalizing h with
  | nil => rfl
  | cons id ids ih => exact (ih _).trans (palette_markVarnode h vs c special sc id)

/-- Only membership counts among the variables. -/
theorem addVarnodes_congr (hvs : ∀ v, v ∈ vs ↔ v ∈ vs') (h : Highlights) (parent : NodeId)
    (c : Color) (special : Option SpecialUse) (sc : Color) :
    h.addVarnodes parent vs c special sc = h.addVarnodes parent vs' c special sc := by
  have hmark : ∀ h : Highlights,
      h.markVarnode vs c special sc = h.markVarnode vs' c special sc := by
    intro h
    funext id
    simp only [markVarnode, Token.usesVarnode_congr hvs]
  simp only [addVarnodes, hmark]

/-- Only membership counts among the operations. -/
theorem addOps_congr (hops : ∀ op, op ∈ ops ↔ op ∈ ops') (h : Highlights) (parent : NodeId)
    (c : Color) : h.addOps parent ops c = h.addOps parent ops' c := by
  simp only [addOps, Token.usesOp_congr hops]

end Highlights

end TokenHighlight
