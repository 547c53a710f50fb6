import TokenHighlight.CommandLine.Run
import TokenHighlight.Proofs.CommandLine.Shown
import TokenHighlight.Proofs.View.Notification

/-!
# What a run displays

The options of a run are carried out in three stages: a selection, the uses of variables and
operations, and filling. Each stage paints over the one before. What comes of the first two can be
said of each token by itself, and comes to the tree that the options mark; the third one fills the
gaps of that.

Everything happens in a session, with the flag of the display as its only listener. All operations
of a run are heard of, the first one being that the palette is set up, so that the flag is raised
whatever the options are.

## Main definitions

* `Tree.seedLine` — the line for a search, by the colors in a tree
* `Session.displayed` — the session of a run

## Main results

* `Options.session_eq_ok` — the session of a run displays what the options show
* `Session.print_displayed` — what is printed of it
-/

namespace TokenHighlight

/-! ### The search -/

/-- The line for the search, by the colors of a tree. There is one just if a single token is
colored, and it tells the text of that. -/
def Tree.seedLine (t : Tree) : String :=
  match t.coloredTokens with
  | [id] => ((t.token? id).map fun tok => "search seed: " ++ Text.quoted tok.text ++ "\n").getD ""
  | _ => ""

/-- The set, which the search goes by, tells the same as the colors. -/
theorem Highlights.searchLine_eq_seedLine {h : Highlights} (hwf : h.tree.WellFormed)
    (hsound : ∀ id, h.Sound id) : h.searchLine = h.tree.seedLine := by
  have hperm : h.marked.toList.Perm h.tree.coloredTokens := toList_marked_perm hwf hsound
  have hunique : ∀ id, h.unique? = some id ↔ h.tree.coloredTokens = [id] := by
    intro id
    rw [unique?_eq_some_iff, ← List.perm_singleton, ← List.perm_singleton]
    exact ⟨hperm.symm.trans, hperm.trans⟩
  rw [Tree.seedLine]
  split
  · next id hid =>
    rw [searchLine, searchText?, (hunique id).2 hid, Option.bind_some]
    cases h.tree.token? id <;> rfl
  · next hne =>
    have hnone : h.unique? = none :=
      Option.eq_none_iff_forall_ne_some.2 fun id hid => hne id ((hunique id).1 hid)
    rw [searchLine, searchText?, hnone]
    rfl

/-! ### The session of a run -/

namespace Session

/-- A session in which the flag of the display listens and nobody else. -/
def displayed (h : Highlights) (raised : Bool) : Session where
  view := ⟨h, Listeners.empty.subscribe (.flag 0) (.flag 0)⟩
  subscriptions := 0
  flags := [raised]
  hub := .empty

theorem step_attachFlag_start (t : Tree) :
    ((start t).step .attachFlag).session = displayed (.start t .default) false := rfl

/-- An operation that is heard of raises the flag. -/
theorem operate_displayed {h : Highlights} {op : Operation} {raised : Bool}
    (hheard : (View.Event.operate op).isHeard (displayed h raised).view = true) :
    ((displayed h raised).operate op).session = displayed (op.run h).1 true := by
  have hcalled : ((displayed h raised).view.perform op).called = [.flag 0] := by
    rw [View.called_perform, if_pos hheard]
    rfl
  rw [operate, hcalled, View.perform_view]
  rfl

theorem print_displayed (h : Highlights) :
    (displayed h true).print = h.tree.listing ++ h.searchLine := rfl

end Session

open Session Highlights

namespace Options

variable {o : Options} {h : Highlights} {t : Tree} {p : Palette}

/-! ### The stages -/

theorem bracePartner?_byText (hwf : h.tree.WellFormed) (id : NodeId) :
    h.bracePartner? .byText id = BraceLookup.partnerByText? h.tree id := by
  ext x
  rw [bracePartner?_eq_some_iff]
  constructor
  · exact fun hx => hx.2.1
  · intro hx
    exact ⟨BraceLookup.isBrace_of_partnerByText? hx, hx,
      hwf.mem_tokens_iff.1 (BraceLookup.mem_tokens_of_partnerByText? hx)⟩

/-- What the first stage shows of the loaded tree. -/
theorem exists_applySelect (hwf : t.WellFormed) (hplain : t.IsPlain)
    (hselect : ∀ index, o.select = some index → index < t.tokens.length) :
    ∃ h, o.applySelect (displayed (.start t p) true) = .ok (displayed h true) ∧
      Changes (.start t p) h ∧ h.palette = p ∧
      ∀ x, h.tree.token? x = (t.token? x).map fun tok =>
        { tok with
          highlight := o.selectionColor? p.get t x
          matching := decide (o.partner? t = some x) } := by
  cases hindex : o.select with
  | none =>
    have hselected : o.selected? t = none := by
      rw [selected?, hindex]
      rfl
    refine ⟨.start t p, ?_, Changes.refl _, rfl, fun x => ?_⟩
    · rw [applySelect, hindex]
    · -- Without a selection the tokens stay as plain as they are.
      simp only [selectionColor?, partner?, hselected, Option.bind_none, Option.any_none,
        Bool.false_eq_true, reduceCtorEq, or_self, if_false]
      show t.token? x = (t.token? x).map Token.cleared
      rw [← Tree.token?_cleared, hplain.cleared_eq]
  | some index =>
    have hlt : index < t.tokens.length := hselect index hindex
    have hselected : o.selected? t = some t.tokens[index] := by
      rw [selected?, hindex]
      exact List.getElem?_eq_getElem hlt
    refine ⟨(Highlights.start t p).select .byText t.tokens[index], ?_, changes_select _ _ _,
      palette_select _ _ _, fun x => ?_⟩
    · have htoken : (displayed (.start t p) true).view.tree.tokens[index]? =
          some t.tokens[index] := List.getElem?_eq_getElem hlt
      simp only [applySelect, hindex, htoken]
      exact congrArg Except.ok (operate_displayed rfl)
    · have hclear : (Highlights.start t p).unmarkAll.tree = t.cleared := by
        refine tree_unmarkAll (sound_start hplain p) ?_
        exact @flagMarked_run t hplain p [] (List.forall_mem_nil _)
      rw [token?_select hclear BraceLookup.isStructural_byText]
      simp only [Highlights.selectionColor?, selectionColor?, partner?, hselected, Option.bind_some,
        Option.any_some, decide_eq_true_eq, Option.some_inj, eq_comm (a := t.tokens[index]),
        bracePartner?_byText (h := .start t p) hwf]
      rfl

/-- A write to every token of the document is a write to every token. -/
theorem ite_mem_tokens (hwf : t.WellFormed) (f : Token → Token) (x : NodeId) :
    (if x ∈ t.flatten Tree.root then (t.token? x).map f else t.token? x) = (t.token? x).map f := by
  cases ht : t.token? x with
  | none => exact ite_self _
  | some tok =>
    have hx : x ∈ t.flatten Tree.root := hwf.mem_tokens_iff.2 (by rw [ht]; rfl)
    exact if_pos hx

theorem exists_applyVarnodes (hwf : h.tree.WellFormed) :
    ∃ h', o.applyVarnodes (displayed h true) = displayed h' true ∧ Changes h h' ∧
      h'.palette = h.palette ∧
      ∀ x, h'.tree.token? x = (h.tree.token? x).map fun tok =>
        { tok with
          highlight :=
            if tok.usesVarnode o.varnodes then some h.palette.highlight else tok.highlight } := by
  rw [applyVarnodes]
  cases hvs : o.varnodes with
  | nil =>
    refine ⟨h, rfl, Changes.refl h, rfl, fun x => ?_⟩
    have hnone : Token.usesVarnode [] = fun _ => false := by
      funext tok
      cases hv : tok.varnode <;> simp [Token.usesVarnode, hv]
    simp only [hnone, Bool.false_eq_true, if_false]
    exact Option.map_id'.symm
  | cons v vs =>
    refine ⟨h.addVarnodes Tree.root (v :: vs) h.palette.highlight none h.palette.special,
      operate_displayed rfl, changes_addVarnodes _ _ _ _ _ _, palette_addVarnodes _ _ _ _ _ _,
      fun x => ?_⟩
    rw [token?_addVarnodes, ite_mem_tokens hwf]
    rfl

theorem exists_applyOps (hwf : h.tree.WellFormed) :
    ∃ h', o.applyOps (displayed h true) = displayed h' true ∧ Changes h h' ∧
      ∀ x, h'.tree.token? x = (h.tree.token? x).map fun tok =>
        { tok with
          highlight := if tok.usesOp o.ops then some h.palette.highlight else tok.highlight } := by
  rw [applyOps]
  cases hops : o.ops with
  | nil =>
    refine ⟨h, rfl, Changes.refl h, fun x => ?_⟩
    have hnone : Token.usesOp [] = fun _ => false := by
      funext tok
      cases hop : tok.op <;> simp [Token.usesOp, hop]
    simp only [hnone, Bool.false_eq_true, if_false]
    exact Option.map_id'.symm
  | cons op ops =>
    refine ⟨h.addOps Tree.root (op :: ops) h.palette.highlight, operate_displayed rfl,
      changes_markAll _ _ _, fun x => ?_⟩
    rw [token?_addOps, ite_mem_tokens hwf]

/-- What the second stage shows of a tree. -/
theorem exists_applyUses (hwf : h.tree.WellFormed) :
    ∃ h', o.applyOps (o.applyVarnodes (displayed h true)) = displayed h' true ∧ Changes h h' ∧
      ∀ x, h'.tree.token? x = (h.tree.token? x).map fun tok =>
        { tok with
          highlight := if o.uses tok then some h.palette.highlight else tok.highlight } := by
  obtain ⟨a, ha, hchanges, hpalette, htoken⟩ := exists_applyVarnodes (o := o) hwf
  obtain ⟨b, hb, hchanges', htoken'⟩ := exists_applyOps (o := o) (hchanges.wellFormed hwf)
  refine ⟨b, by rw [ha, hb], hchanges.trans hchanges', fun x => ?_⟩
  rw [htoken', htoken, hpalette, Option.map_map]
  refine congrFun (congrArg Option.map (funext fun tok => ?_)) _
  -- A color does not change which operation the token refers to.
  have hop : ∀ c, Token.usesOp o.ops { tok with highlight := c } = tok.usesOp o.ops := fun _ => rfl
  simp only [Function.comp_apply, hop, uses, Bool.or_eq_true]
  by_cases huse : tok.usesOp o.ops = true <;> simp [huse]

theorem exists_applyFill (hwf : h.tree.WellFormed) (hsound : ∀ id, h.Sound id) (config : Config) :
    ∃ h', o.applyFill config (displayed h true) = displayed h' true ∧ Changes h h' ∧
      if o.fill = true ∨ config.fillGaps = true then h.tree.Fills h'.tree
      else h'.tree = h.tree := by
  simp only [applyFill, Bool.or_eq_true]
  split
  · exact ⟨h.fill.1, operate_displayed rfl, changes_fill h, fills_fill hwf hsound⟩
  · exact ⟨h, rfl, Changes.refl h, rfl⟩

/-- The palette is set up before anything else, and that raises the flag. -/
theorem session_eq_bind (o : Options) (config : Config) (t : Tree) :
    o.session config t = do
      let s ← o.applySelect
        (displayed (.start t (Palette.default.overlay config.palette)) true)
      return o.applyFill config (o.applyOps (o.applyVarnodes s)) := by
  have hoverlay : ((displayed (.start t .default) false).operate
      (.overlayPalette config.palette)).session =
        displayed (.start t (Palette.default.overlay config.palette)) true := operate_displayed rfl
  rw [session, step_attachFlag_start, hoverlay]

/-- **The session of a run displays what the options show**, provided that the token to be selected
is there. -/
theorem session_eq_ok (htree : t.Reachable) (hplain : t.IsPlain)
    (hselect : ∀ index, o.select = some index → index < t.tokens.length) (config : Config) :
    ∃ h, o.session config t = .ok (displayed h true) ∧ o.Displays config t h.tree ∧
      h.tree.WellFormed ∧ ∀ id, h.Sound id := by
  set p := Palette.default.overlay config.palette with hp
  have hwf : t.WellFormed := htree.wellFormed
  obtain ⟨a, ha, hchanges, hpalette, htoken⟩ := exists_applySelect (p := p) hwf hplain hselect
  obtain ⟨b, hb, hchanges', htoken'⟩ := exists_applyUses (o := o) (hchanges.wellFormed hwf)
  have hall : Changes (.start t p) b := hchanges.trans hchanges'
  have hsound : ∀ id, b.Sound id := fun id => hall.sound (sound_start hplain p id)
  obtain ⟨c, hc, hfilled, hdisplays⟩ :=
    exists_applyFill (o := o) (hall.wellFormed hwf) hsound config
  have hmarked : b.tree = o.marked p.get t := by
    refine Tree.eq_painted hall.cleared_eq fun x => ?_
    rw [htoken', htoken, hpalette, Option.map_map, markedColor?]
    cases ht : t.token? x <;> rfl
  refine ⟨c, ?_, ⟨b.tree, ?_, hdisplays⟩, hfilled.wellFormed (hall.wellFormed hwf),
    fun id => hfilled.sound (hsound id)⟩
  · rw [session_eq_bind, ← hp, ha]
    exact congrArg Except.ok ((congrArg _ hb).trans hc)
  · rw [hmarked, hp, config.get_overlay]
    exact marks_marked hwf o config.color

/-- The session fails if there is no token to be selected. -/
theorem session_eq_error {index : Nat} (hindex : o.select = some index)
    (hle : t.tokens.length ≤ index) (config : Config) :
    o.session config t = .error (.outOfRange index t.tokens.length) := by
  have hselect : ∀ p, o.applySelect (displayed (.start t p) true) =
      .error (.outOfRange index t.tokens.length) := by
    intro p
    have hnone : (displayed (.start t p) true).view.tree.tokens[index]? = none :=
      List.getElem?_eq_none hle
    simp only [applySelect, hindex, hnone]
    rfl
  rw [session_eq_bind, hselect]
  rfl

end Options

end TokenHighlight
