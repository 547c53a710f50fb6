import TokenHighlight.Proofs.Tree.Growth

/-!
# What is displayed of a tree

Two attributes of a token are up to whoever displays it, its color and its flag. A tree is plain if
no token in it has either. `Tree.cleared` makes any tree plain and leaves the rest of it alone. That
is how the part of a tree is compared that no highlighting touches: two trees with the same cleared
tree differ at most in what is displayed, so they are equal as soon as they have the same tokens.

## Main definitions

* `Tree.shows`, `Tree.isColored`, `Tree.isMatching` — what a number shows, if it names a token
* `Tree.color?` — the color of a token
* `Tree.coloredTokens` — the tokens with a color, in document order
* `Token.IsPlain`, `Tree.IsPlain`, `Tree.Addition.IsPlain` — neither color nor flag
* `Tree.cleared` — the tree without colors and flags
* `Tree.sample` — a small plain tree

## Main results

* `Tree.IsPlain.shows`, `Tree.shows_add` — plain trees show nothing, plain additions add nothing
* `Tree.token?_foldl_modifyToken`, `Tree.shows_modifyToken` — what is behind a write
* `Tree.ext_of_cleared`, `Tree.ext_of_color?` — equality of trees, token by token
* `Tree.isPlain_iff_cleared_eq` — a plain tree is its own cleared tree
* `Tree.cleared_modifyToken`, `Tree.cleared_add` — what display writes and additions do to the
  cleared tree
-/

namespace TokenHighlight

/-- Neither color nor flag. -/
def Token.IsPlain (tok : Token) : Prop :=
  tok.highlight = none ∧ tok.matching = false

theorem Token.isPlain_iff_cleared_eq {tok : Token} : tok.IsPlain ↔ tok.cleared = tok := by
  obtain ⟨data, highlight, matching⟩ := tok
  simp [Token.IsPlain, Token.cleared, eq_comm]

instance (tok : Token) : Decidable tok.IsPlain :=
  inferInstanceAs (Decidable (_ ∧ _))

theorem Token.IsPlain.eq_false {tok : Token} (h : tok.IsPlain) {p : Token → Bool}
    (hp : ∀ tok : Token, p tok.cleared = false) : p tok = false := by
  rw [← Token.isPlain_iff_cleared_eq.1 h]
  exact hp tok

namespace Tree

variable {t t' : Tree}

/-- No token of the tree has a color or a flag. -/
def IsPlain (t : Tree) : Prop :=
  ∀ id tok, t.token? id = some tok → tok.IsPlain

/-- What is added is plain. A group is. -/
def Addition.IsPlain (a : Addition) : Prop :=
  ∀ tok, a.token? = some tok → tok.IsPlain

instance (a : Addition) : Decidable a.IsPlain :=
  inferInstanceAs (Decidable (∀ tok ∈ a.token?, tok.IsPlain))

theorem isPlain_empty : empty.IsPlain := by
  intro id tok h
  cases id <;> cases h

theorem IsPlain.add (h : t.IsPlain) {a : Addition} (ha : a.IsPlain) : (t.add a).IsPlain := by
  intro id tok htok
  rcases t.token?_add a id with hold | ⟨_, hnew⟩
  · exact h id tok (hold ▸ htok)
  · exact ha tok (hnew ▸ htok)

/-! ### Writes -/

/-- Writing to what is no token does nothing. -/
theorem modifyToken_eq_self {id : NodeId} (h : t.token? id = none) (f : Token → Token) :
    t.modifyToken id f = t := by
  refine congrArg Tree.mk (Array.ext_getElem? fun other => ?_)
  refine (t.getElem?_nodes_modifyToken id other f).trans ?_
  split
  · next hid =>
    subst hid
    rw [token?] at h
    rcases hn : t.nodes[id]? with _ | ⟨p, cs | tok⟩
    · rfl
    · rfl
    · rw [hn] at h
      cases h
  · rfl

theorem isSome_token?_modifyToken (t : Tree) (id other : NodeId) (f : Token → Token) :
    ((t.modifyToken id f).token? other).isSome = (t.token? other).isSome := by
  rw [token?_modifyToken]
  split
  · exact Option.isSome_map
  · rfl

/-- Writing the same to tokens one after the other writes it to all that are listed, however often
they are, provided that writing it twice is writing it once. -/
theorem token?_foldl_modifyToken {f : Token → Token} (hf : ∀ tok, f (f tok) = f tok)
    (ids : List NodeId) (t : Tree) (other : NodeId) :
    (ids.foldl (fun t id => t.modifyToken id f) t).token? other =
      if other ∈ ids then (t.token? other).map f else t.token? other := by
  induction ids generalizing t with
  | nil => rfl
  | cons id ids ih =>
    rw [List.foldl_cons, ih, token?_modifyToken]
    by_cases hid : id = other
    · subst hid
      cases t.token? id <;> simp [hf]
    · simp [hid, Ne.symm hid]

/-! ### Shown attributes

An attribute that is displayed is a property of tokens that no cleared token has. -/

/-- Whether a number names a token with a property. -/
def shows (t : Tree) (p : Token → Bool) (id : NodeId) : Bool :=
  (t.token? id).any p

/-- Whether a number names a token that has a color. -/
def isColored (t : Tree) (id : NodeId) : Bool :=
  t.shows Token.isHighlighted id

/-- Whether a number names a token that is flagged as a partner. -/
def isMatching (t : Tree) (id : NodeId) : Bool :=
  t.shows (·.matching) id

/-- The tokens with a color, in document order. -/
def coloredTokens (t : Tree) : List NodeId :=
  t.tokens.filter t.isColored

theorem isColored_iff {id : NodeId} :
    t.isColored id = true ↔ ∃ tok c, t.token? id = some tok ∧ tok.highlight = some c := by
  rw [isColored, shows]
  cases t.token? id with
  | none => simp
  | some tok => simp [Token.isHighlighted, Option.isSome_iff_exists]

/-- The color of a token. Nothing else has any. -/
def color? (t : Tree) (id : NodeId) : Option Color :=
  (t.token? id).bind (·.highlight)

theorem isColored_eq_isSome_color? (t : Tree) (id : NodeId) :
    t.isColored id = (t.color? id).isSome := by
  rw [isColored, shows, color?]
  cases t.token? id <;> rfl

variable {p : Token → Bool}

theorem IsPlain.shows (h : t.IsPlain) (hp : ∀ tok : Token, p tok.cleared = false) (id : NodeId) :
    t.shows p id = false := by
  rw [Tree.shows]
  cases ht : t.token? id with
  | none => rfl
  | some tok => exact (h id tok ht).eq_false hp

/-- An addition without a property brings the property into no tree. -/
theorem shows_add_of_false (t : Tree) {a : Addition}
    (ha : ∀ tok, a.token? = some tok → p tok = false) (id : NodeId) :
    (t.add a).shows p id = t.shows p id := by
  rw [Tree.shows, Tree.shows]
  rcases t.token?_add a id with h | ⟨hold, hnew⟩
  · rw [h]
  · rw [hold, hnew]
    cases htok : a.token? with
    | none => rfl
    | some tok => exact ha tok htok

/-- Plain additions bring nothing into a tree that is displayed. -/
theorem shows_add (t : Tree) {a : Addition} (ha : a.IsPlain)
    (hp : ∀ tok : Token, p tok.cleared = false) (id : NodeId) :
    (t.add a).shows p id = t.shows p id :=
  t.shows_add_of_false (fun tok htok => (ha tok htok).eq_false hp) id

theorem shows_modifyToken (t : Tree) (id other : NodeId) (f : Token → Token) :
    (t.modifyToken id f).shows p other =
      if id = other then (t.token? other).any (p ∘ f) else t.shows p other := by
  rw [Tree.shows, Tree.shows, token?_modifyToken]
  split
  · exact Option.any_map
  · rfl

/-- Writing to a token what makes no difference to a property. -/
theorem shows_modifyToken_of_eq {f : Token → Token} (hf : ∀ tok, p (f tok) = p tok) (t : Tree)
    (id other : NodeId) : (t.modifyToken id f).shows p other = t.shows p other := by
  rw [shows_modifyToken, show p ∘ f = p from funext hf, ← Tree.shows, ite_self]

/-- Writing to a token what gives it a property. -/
theorem shows_modifyToken_of_true {f : Token → Token} (hf : ∀ tok, p (f tok) = true) (t : Tree)
    (id other : NodeId) :
    (t.modifyToken id f).shows p other =
      (t.shows p other || (decide (id = other) && (t.token? id).isSome)) := by
  rw [shows_modifyToken]
  by_cases hid : id = other
  · subst hid
    rw [Tree.shows]
    cases t.token? id <;> simp [hf]
  · simp [hid]

/-- Writing to a token what takes a property from it. -/
theorem shows_modifyToken_of_false {f : Token → Token} (hf : ∀ tok, p (f tok) = false) (t : Tree)
    (id other : NodeId) :
    (t.modifyToken id f).shows p other = (decide (id ≠ other) && t.shows p other) := by
  rw [shows_modifyToken]
  by_cases hid : id = other
  · cases t.token? other <;> simp [hid, hf]
  · simp [hid]

/-! ### The cleared tree -/

/-- The same tree without colors and flags. -/
def cleared (t : Tree) : Tree :=
  ⟨t.nodes.map (Node.mapToken Token.cleared)⟩

theorem getElem?_nodes_cleared (t : Tree) (id : NodeId) :
    t.cleared.nodes[id]? = t.nodes[id]?.map (Node.mapToken Token.cleared) := by
  rw [cleared, Array.getElem?_map]

theorem token?_cleared (t : Tree) (id : NodeId) :
    t.cleared.token? id = (t.token? id).map Token.cleared := by
  rw [token?, token?, getElem?_nodes_cleared]
  rcases t.nodes[id]? with _ | ⟨p, cs | tok⟩ <;> rfl

theorem isGroup_cleared (t : Tree) (id : NodeId) : t.cleared.isGroup id = t.isGroup id := by
  rw [isGroup, isGroup, getElem?_nodes_cleared]
  rcases t.nodes[id]? with _ | ⟨p, cs | tok⟩ <;> rfl

theorem size_cleared (t : Tree) : t.cleared.size = t.size := by
  rw [Tree.size, cleared, Array.size_map, Tree.size]

/-- **Equality of trees.** Two trees with the same cleared tree are equal if they have the same
tokens. -/
theorem ext_of_cleared (hc : t.cleared = t'.cleared) (ht : ∀ id, t.token? id = t'.token? id) :
    t = t' := by
  have hnodes : t.nodes = t'.nodes := by
    refine Array.ext_getElem? fun id => ?_
    have hnode : t.nodes[id]?.map (Node.mapToken Token.cleared) =
        t'.nodes[id]?.map (Node.mapToken Token.cleared) := by
      rw [← getElem?_nodes_cleared, hc, getElem?_nodes_cleared]
    have htok := ht id
    rw [token?, token?] at htok
    generalize t.nodes[id]? = n at hnode htok ⊢
    generalize t'.nodes[id]? = n' at hnode htok ⊢
    rcases n with _ | ⟨p, cs | tok⟩ <;> rcases n' with _ | ⟨p', cs' | tok'⟩ <;>
      simp_all [Node.mapToken]
  cases t
  cases t'
  exact congrArg Tree.mk hnodes

/-- Two trees with the same cleared tree are equal if they have the same colors and flags. -/
theorem ext_of_color? (hc : t.cleared = t'.cleared) (hcolor : ∀ id, t.color? id = t'.color? id)
    (hmatching : ∀ id, t.isMatching id = t'.isMatching id) : t = t' := by
  refine ext_of_cleared hc fun id => ?_
  have hdata : (t.token? id).map Token.cleared = (t'.token? id).map Token.cleared := by
    rw [← token?_cleared, hc, token?_cleared]
  have hcolor' := hcolor id
  have hmatching' := hmatching id
  rw [color?, color?] at hcolor'
  rw [isMatching, isMatching, shows, shows] at hmatching'
  generalize t.token? id = tok at hdata hcolor' hmatching' ⊢
  generalize t'.token? id = tok' at hdata hcolor' hmatching' ⊢
  rcases tok with _ | ⟨data, highlight, matching⟩ <;>
    rcases tok' with _ | ⟨data', highlight', matching'⟩ <;>
    simp_all [Token.cleared]

@[simp] theorem cleared_cleared (t : Tree) : t.cleared.cleared = t.cleared := by
  refine congrArg Tree.mk ?_
  rw [cleared, Array.map_map]
  refine Array.map_congr_left fun n _ => ?_
  rcases n with ⟨p, cs | tok⟩ <;> rfl

/-- Clearing leaves just the plain trees as they are. -/
theorem isPlain_iff_cleared_eq : t.IsPlain ↔ t.cleared = t := by
  constructor
  · intro h
    refine ext_of_cleared t.cleared_cleared fun id => ?_
    rw [token?_cleared]
    cases ht : t.token? id with
    | none => rfl
    | some tok => exact congrArg some (Token.isPlain_iff_cleared_eq.1 (h id tok ht))
  · intro h id tok ht
    rw [← h, token?_cleared, Option.map_eq_some_iff] at ht
    obtain ⟨tok, _, rfl⟩ := ht
    exact ⟨rfl, rfl⟩

theorem IsPlain.cleared_eq (h : t.IsPlain) : t.cleared = t :=
  isPlain_iff_cleared_eq.1 h

instance (t : Tree) : Decidable t.IsPlain :=
  decidable_of_iff _ isPlain_iff_cleared_eq.symm

/-- Writing to what is displayed does not alter the cleared tree. -/
theorem cleared_modifyToken (t : Tree) (id : NodeId) {f : Token → Token}
    (hf : ∀ tok, (f tok).cleared = tok.cleared) : (t.modifyToken id f).cleared = t.cleared := by
  refine congrArg Tree.mk (Array.ext_getElem? fun other => ?_)
  rw [Array.getElem?_map, Array.getElem?_map, getElem?_nodes_modifyToken]
  split
  · rcases t.nodes[other]? with _ | ⟨p, cs | tok⟩
    · rfl
    · rfl
    · simp [Node.mapToken, hf]
  · rfl

/-- What is added, without color and flag. -/
def Addition.cleared : Addition → Addition
  | group parent => group parent
  | token parent tok => token parent tok.cleared

theorem Addition.parent_cleared (a : Addition) : a.cleared.parent = a.parent := by
  cases a <;> rfl

theorem Addition.IsPlain.cleared_eq {a : Addition} (ha : a.IsPlain) : a.cleared = a := by
  cases a with
  | group parent => rfl
  | token parent tok =>
    exact congrArg (Addition.token parent) (Token.isPlain_iff_cleared_eq.1 (ha tok rfl))

/-- Clearing a grown tree comes to growing the cleared one. -/
theorem cleared_grown (t : Tree) (a : Addition) :
    (t.grown a).cleared = t.cleared.grown a.cleared := by
  have hmodify : (t.nodes.modify a.parent (Node.addChild t.size)).map
        (Node.mapToken Token.cleared) =
      t.cleared.nodes.modify a.parent (Node.addChild t.size) := by
    refine Array.ext_getElem? fun id => ?_
    rw [Array.getElem?_map, Array.getElem?_modify, Array.getElem?_modify,
      getElem?_nodes_cleared]
    split
    · rcases t.nodes[id]? with _ | ⟨p, cs | tok⟩ <;> rfl
    · rfl
  have hcontent : Node.mapToken Token.cleared ⟨some a.parent, a.content⟩ =
      ⟨some a.cleared.parent, a.cleared.content⟩ := by
    cases a <;> rfl
  rw [grown, grown, cleared, Array.map_push, hcontent, hmodify, size_cleared, a.parent_cleared]

/-- A plain addition comes to the same before and after clearing. -/
theorem cleared_add (t : Tree) {a : Addition} (ha : a.IsPlain) :
    (t.add a).cleared = t.cleared.add a := by
  cases hg : t.isGroup a.parent with
  | true =>
    rw [add_of_isGroup hg, add_of_isGroup ((t.isGroup_cleared _).trans hg), cleared_grown,
      ha.cleared_eq]
  | false =>
    rw [add_of_not_isGroup hg, add_of_not_isGroup ((t.isGroup_cleared _).trans hg)]

/-! ### A document -/

/-- Two calls and a block. The bracket of the first call opens in a group and closes outside of it;
the second call is in the block, and its bracket opens one group deeper than it closes. -/
def sample : Tree :=
  edited <| List.map Edit.add [
    .token 0 (.plain { text := "f", address := some 16 }),
    .group 0,
    .token 2 (.plain { text := "(", bracket := some (.opening 7) }),
    .token 2 (.plain { text := "x", address := some 17, varnode := some 3 }),
    .token 0 (.plain { text := ")", bracket := some (.closing 7) }),
    .group 0,
    .token 6 (.plain { text := "\x7b" }),
    .group 6,
    .token 8 (.plain { text := "(", bracket := some (.opening 7) }),
    .token 8 (.plain { text := "y", varnode := some 3 }),
    .token 6 (.plain { text := ")", bracket := some (.closing 7) }),
    .token 6 (.plain { text := "\x7d" })]

theorem reachable_sample : sample.Reachable := ⟨_, rfl⟩

theorem isPlain_sample : sample.IsPlain := by decide +kernel

end Tree

end TokenHighlight
