import TokenHighlight.CommandLine.Arguments
import TokenHighlight.Config.Basic
import TokenHighlight.Proofs.Highlight.Filling
import TokenHighlight.Proofs.Highlight.Selecting
import TokenHighlight.Proofs.Highlight.Uses
import TokenHighlight.Proofs.Tree.Braces

/-!
# What options show

The options of a run say of each token which color it gets, and this can be said without carrying
anything out. A use of a variable or operation that was asked for has the highlight color. Failing
that, a token in the range of the bracket that is selected, and the partner of the brace that is
selected, have the color for brackets. Failing that, the selected token has the highlight color.
Then gaps are filled, if that was asked for or is configured. What the color for a role is depends
on the configuration, role by role.

Ranges are meant as intervals of the document, partners as what a stack makes of the braces, and
uses as what the token says. None of this refers to how the program looks for them.

The tree that is shown can be computed all the same, by the searches that the program makes. The
second half of the module does so, and shows that what comes out is the tree that is described.

## Main definitions

* `Config.color` — the color for a role
* `Options.Selects`, `Options.SelectsRange`, `Options.SelectsPartner`, `Options.IsUse` — what the
  options say of a token
* `Options.Colors`, `Options.Marks` — colors and flags before gaps are filled
* `Options.Displays` — what the options show of a tree
* `Options.marked`, `Options.shown` — the same, computed

## Main results

* `Options.Displays.unique` — one tree is displayed
* `Options.displays_shown` — it is the one that is computed
-/

namespace TokenHighlight

/-! ### Painted trees -/

namespace Tree

/-- A tree with given colors and flags, whatever it had before. -/
def painted (t : Tree) (color? : NodeId → Option Color) (matching : NodeId → Bool) : Tree :=
  ⟨t.nodes.mapIdx fun id => Node.mapToken fun tok =>
    { tok with highlight := color? id, matching := matching id }⟩

variable {t : Tree} {color? : NodeId → Option Color} {matching : NodeId → Bool} {x : NodeId}

theorem token?_painted (t : Tree) (color? : NodeId → Option Color) (matching : NodeId → Bool)
    (x : NodeId) :
    (t.painted color? matching).token? x = (t.token? x).map fun tok =>
      { tok with highlight := color? x, matching := matching x } := by
  rw [token?, token?, painted, Array.getElem?_mapIdx]
  rcases t.nodes[x]? with _ | ⟨p, cs | tok⟩ <;> rfl

@[simp] theorem cleared_painted (t : Tree) (color? : NodeId → Option Color)
    (matching : NodeId → Bool) : (t.painted color? matching).cleared = t.cleared := by
  refine congrArg Tree.mk (Array.ext_getElem? fun x => ?_)
  rw [painted, Array.getElem?_map, Array.getElem?_map, Array.getElem?_mapIdx]
  rcases t.nodes[x]? with _ | ⟨p, cs | tok⟩ <;> rfl

/-- A tree that displays the right thing of every token is the painted one. -/
theorem eq_painted {t' : Tree} (hcleared : t'.cleared = t.cleared)
    (htoken : ∀ x, t'.token? x = (t.token? x).map fun tok =>
      { tok with highlight := color? x, matching := matching x }) :
    t' = t.painted color? matching :=
  ext_of_cleared (hcleared.trans (t.cleared_painted _ _).symm) fun x =>
    (htoken x).trans (t.token?_painted _ _ x).symm

end Tree

/-! ### Described -/

/-- The color for a role: the one that is configured, or else the default one. -/
def Config.color (config : Config) (role : ColorRole) : Color :=
  (config.palette.get? role).getD (Palette.default.get role)

theorem Config.get_overlay (config : Config) :
    (Palette.default.overlay config.palette).get = config.color :=
  funext fun role => Palette.default.get_overlay config.palette role

namespace Options

variable {o : Options} {config : Config} {color : ColorRole → Color} {t a b : Tree}
  {id x : NodeId} {c : Color}

/-- A token is selected: it stands, in document order, at the place that was asked for. -/
def Selects (o : Options) (t : Tree) (id : NodeId) : Prop :=
  ∃ index, o.select = some index ∧ t.tokens[index]? = some id

/-- A token lies in the range of the bracket that is selected. -/
def SelectsRange (o : Options) (t : Tree) (x : NodeId) : Prop :=
  ∃ id, o.Selects t id ∧ t.InRange id x

/-- A token is the partner of the brace that is selected. -/
def SelectsPartner (o : Options) (t : Tree) (x : NodeId) : Prop :=
  ∃ id, o.Selects t id ∧ ((id, x) ∈ t.bracePairs ∨ (x, id) ∈ t.bracePairs)

/-- A token uses one of the variables or operations that were asked for. -/
def IsUse (o : Options) (t : Tree) (x : NodeId) : Prop :=
  ∃ tok, t.token? x = some tok ∧
    ((∃ v ∈ o.varnodes, tok.varnode = some v) ∨ ∃ op ∈ o.ops, tok.op = some op)

/-- The color of a token before gaps are filled. A use has the highlight color also where the
selection would give another one. -/
inductive Colors (o : Options) (color : ColorRole → Color) (t : Tree) (x : NodeId) : Color → Prop
  | use (h : o.IsUse t x) : Colors o color t x (color .highlight)
  | structural (hno : ¬o.IsUse t x) (h : o.SelectsRange t x ∨ o.SelectsPartner t x) :
      Colors o color t x (color .paren)
  | selected (hno : ¬o.IsUse t x) (hno' : ¬(o.SelectsRange t x ∨ o.SelectsPartner t x))
      (h : o.Selects t x) : Colors o color t x (color .highlight)

/-- A tree shows of another one what the options ask for before gaps are filled. -/
structure Marks (o : Options) (color : ColorRole → Color) (t marked : Tree) : Prop where
  cleared : marked.cleared = t.cleared
  isMatching : ∀ x, marked.isMatching x = true ↔ o.SelectsPartner t x
  color? : ∀ x c, marked.color? x = some c ↔ o.Colors color t x c

/-- A tree shows of another one what the options and the configuration ask for. -/
def Displays (o : Options) (config : Config) (t shown : Tree) : Prop :=
  ∃ marked, o.Marks config.color t marked ∧
    if o.fill = true ∨ config.fillGaps = true then marked.Fills shown else shown = marked

theorem Marks.unique (ha : o.Marks color t a) (hb : o.Marks color t b) : a = b := by
  refine Tree.ext_of_color? (ha.cleared.trans hb.cleared.symm) (fun x => Option.ext fun c => ?_)
    fun x => Bool.eq_iff_iff.2 ((ha.isMatching x).trans (hb.isMatching x).symm)
  rw [ha.color?, hb.color?]

/-- **The options show one tree of another.** -/
theorem Displays.unique (ha : o.Displays config t a) (hb : o.Displays config t b) : a = b := by
  obtain ⟨m, hm, ha⟩ := ha
  obtain ⟨m', hm', hb⟩ := hb
  obtain rfl : m = m' := hm.unique hm'
  split at ha
  · next hfill =>
    rw [if_pos hfill] at hb
    exact ha.unique hb
  · next hfill =>
    rw [if_neg hfill] at hb
    rw [ha, hb]

/-! ### Computed -/

/-- The token that is selected. -/
def selected? (o : Options) (t : Tree) : Option NodeId :=
  o.select.bind (t.tokens[·]?)

/-- The partner of the token that is selected. -/
def partner? (o : Options) (t : Tree) : Option NodeId :=
  (o.selected? t).bind (BraceLookup.partnerByText? t)

/-- The color that the selection gives to a token. -/
def selectionColor? (o : Options) (color : ColorRole → Color) (t : Tree) (x : NodeId) :
    Option Color :=
  if (o.selected? t).any (x ∈ t.bracketRange ·) ∨ o.partner? t = some x then some (color .paren)
  else if o.selected? t = some x then some (color .highlight) else none

/-- Whether a token uses one of the variables or operations that were asked for. -/
def uses (o : Options) (tok : Token) : Bool :=
  tok.usesVarnode o.varnodes || tok.usesOp o.ops

/-- The color of a token before gaps are filled. -/
def markedColor? (o : Options) (color : ColorRole → Color) (t : Tree) (x : NodeId) :
    Option Color :=
  if (t.token? x).any o.uses then some (color .highlight) else o.selectionColor? color t x

/-- The tree before gaps are filled. -/
def marked (o : Options) (color : ColorRole → Color) (t : Tree) : Tree :=
  t.painted (o.markedColor? color t) fun x => decide (o.partner? t = some x)

/-- The tree that is shown. -/
def shown (o : Options) (config : Config) (t : Tree) : Tree :=
  if o.fill = true ∨ config.fillGaps = true then (o.marked config.color t).filled
  else o.marked config.color t

theorem selected?_eq_some_iff : o.selected? t = some id ↔ o.Selects t id :=
  Option.bind_eq_some_iff

theorem any_mem_bracketRange_iff (hwf : t.WellFormed) :
    (o.selected? t).any (x ∈ t.bracketRange ·) = true ↔ o.SelectsRange t x := by
  rw [Option.any_eq_true]
  refine exists_congr fun id => and_congr selected?_eq_some_iff ?_
  rw [decide_eq_true_iff, hwf.mem_bracketRange_iff_inRange]

theorem partner?_eq_some_iff (hwf : t.WellFormed) :
    o.partner? t = some x ↔ o.SelectsPartner t x := by
  rw [partner?, Option.bind_eq_some_iff]
  exact exists_congr fun id => and_congr selected?_eq_some_iff hwf.partnerByText?_eq_some_iff

theorem any_uses_iff : (t.token? x).any o.uses = true ↔ o.IsUse t x := by
  rw [Option.any_eq_true]
  refine exists_congr fun tok => and_congr_right fun _ => ?_
  rw [uses, Bool.or_eq_true, Token.usesVarnode_iff, Token.usesOp_iff]

theorem markedColor?_eq_some_iff (hwf : t.WellFormed) :
    o.markedColor? color t x = some c ↔ o.Colors color t x c := by
  have hstructural : (o.selected? t).any (x ∈ t.bracketRange ·) = true ∨ o.partner? t = some x ↔
      o.SelectsRange t x ∨ o.SelectsPartner t x :=
    or_congr (any_mem_bracketRange_iff hwf) (partner?_eq_some_iff hwf)
  rw [markedColor?, selectionColor?]
  -- The cases are the constructors of `Colors`, and that nothing gives the token a color.
  by_cases huse : o.IsUse t x
  · rw [if_pos (any_uses_iff.2 huse)]
    constructor
    · rintro ⟨⟩
      exact .use huse
    · rintro (_ | ⟨hno, _⟩ | ⟨hno, _⟩)
      · rfl
      · exact absurd huse hno
      · exact absurd huse hno
  rw [if_neg (mt any_uses_iff.1 huse)]
  by_cases hrange : o.SelectsRange t x ∨ o.SelectsPartner t x
  · rw [if_pos (hstructural.2 hrange)]
    constructor
    · rintro ⟨⟩
      exact .structural huse hrange
    · rintro (h | _ | ⟨_, hno⟩)
      · exact absurd h huse
      · rfl
      · exact absurd hrange hno
  rw [if_neg (mt hstructural.1 hrange)]
  by_cases hselected : o.Selects t x
  · rw [if_pos (selected?_eq_some_iff.2 hselected)]
    constructor
    · rintro ⟨⟩
      exact .selected huse hrange hselected
    · rintro (h | ⟨_, h⟩ | _)
      · exact absurd h huse
      · exact absurd h hrange
      · rfl
  rw [if_neg (mt selected?_eq_some_iff.1 hselected)]
  refine iff_of_false nofun ?_
  rintro (h | ⟨_, h⟩ | ⟨_, _, h⟩)
  · exact huse h
  · exact hrange h
  · exact hselected h

theorem Selects.isSome_token? (hwf : t.WellFormed) (h : o.Selects t x) :
    (t.token? x).isSome = true := by
  obtain ⟨_, _, hx⟩ := h
  exact hwf.mem_tokens_iff.1 (List.mem_of_getElem? hx)

theorem SelectsPartner.isSome_token? (hwf : t.WellFormed) (h : o.SelectsPartner t x) :
    (t.token? x).isSome = true := by
  obtain ⟨id, _, hx⟩ := h
  exact hwf.mem_tokens_iff.1
    (BraceLookup.mem_tokens_of_partnerByText? (hwf.partnerByText?_eq_some_iff.2 hx))

/-- Only tokens get a color. -/
theorem Colors.isSome_token? (hwf : t.WellFormed) (h : o.Colors color t x c) :
    (t.token? x).isSome = true := by
  cases h with
  | use h =>
    obtain ⟨tok, htok, _⟩ := h
    rw [htok]
    rfl
  | structural _ h =>
    rcases h with ⟨id, _, hx⟩ | hx
    · exact hwf.isSome_token?_of_inRange hx
    · exact hx.isSome_token? hwf
  | selected _ _ h => exact h.isSome_token? hwf

theorem marks_marked (hwf : t.WellFormed) (o : Options) (color : ColorRole → Color) :
    o.Marks color t (o.marked color t) where
  cleared := t.cleared_painted _ _
  isMatching x := by
    rw [Tree.isMatching, Tree.shows, marked, Tree.token?_painted, Option.any_map,
      ← partner?_eq_some_iff hwf]
    cases htok : t.token? x with
    | none =>
      refine iff_of_false Bool.false_ne_true fun hx => ?_
      have hsome := ((partner?_eq_some_iff hwf).1 hx).isSome_token? hwf
      rw [htok] at hsome
      cases hsome
    | some tok => exact decide_eq_true_iff
  color? x c := by
    rw [Tree.color?, marked, Tree.token?_painted]
    cases htok : t.token? x with
    | none =>
      refine iff_of_false (Option.some_ne_none c).symm fun hx => ?_
      have hsome := hx.isSome_token? hwf
      rw [htok] at hsome
      cases hsome
    | some tok => exact markedColor?_eq_some_iff hwf

/-- **The tree that is computed is displayed.** -/
theorem displays_shown (hwf : t.WellFormed) (o : Options) (config : Config) :
    o.Displays config t (o.shown config t) := by
  have hmarks : o.Marks config.color t (o.marked config.color t) := marks_marked hwf o config.color
  refine ⟨_, hmarks, ?_⟩
  rw [shown]
  split
  · exact (hwf.of_cleared_eq hmarks.cleared).fills_filled
  · rfl

end Options

end TokenHighlight
