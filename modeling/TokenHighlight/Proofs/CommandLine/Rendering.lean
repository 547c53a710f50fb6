import Mathlib.Data.List.Forall2
import TokenHighlight.CommandLine.Run
import TokenHighlight.Proofs.Highlight.Agreement
import TokenHighlight.Proofs.Tree.Structure

/-!
# What is rendered

The annotated text and the legend are made from the tree alone. What they show is the set of
highlighted tokens all the same, since set and colors agree in every state of every run. Members of
the set stand in brackets and have a line in the legend, in document order.

A line begins with a number, which is printed in decimal digits behind blanks. Reading it back gives
the place of the token in the document, and that is the number by which a token is selected. Colors
and flags do not change the order of the document, so the number is as good for the tree as it was
loaded as for the one that is rendered.

Marks are added to the text and nothing else is, which tells the length of the annotated text. It
comes to the same in characters and in bytes.

## Main definitions

* `Highlights.members`, `Tree.matchingTokens` — highlighted and flagged tokens, in document order
* `Tree.legendIndex?` — the number that a line begins with
* `Highlights.Describes` — a line tells of a token
* `Highlights.annotated` — a token with the marks that the set and its flag ask for

## Main results

* `Tree.forall₂_legend` — the legend, line by line
* `Tree.legendIndex?_of_legendLine?` — the number is read back
* `Tree.size_annotate` — marks are what is added to the text
* `Highlights.rendering_shows_set` — the whole contract of rendering
-/

namespace TokenHighlight

/-! ### Lines of the legend -/

namespace Tree

/-- The number that a line begins with, behind any blanks. -/
def legendIndex? (line : String) : Option Nat :=
  Text.decimalNumber? ((line.toList.dropWhile (· = ' ')).takeWhile (· ≠ ' '))

theorem ne_blank_of_mem_decimal {n : Nat} {c : Char} (h : c ∈ Text.decimal n) : c ≠ ' ' := by
  rintro rfl
  exact absurd (Nat.isDigit_of_mem_toDigits (by decide) (by decide) h) (by decide)

/-- Digits between blanks are read back. -/
theorem decimalNumber?_of_blanks (width index : Nat) (rest : List Char) :
    Text.decimalNumber? (((List.replicate width ' ' ++
      (Text.decimal index ++ ' ' :: rest)).dropWhile (· = ' ')).takeWhile (· ≠ ' ')) =
        some index := by
  have hblanks : ∀ a ∈ List.replicate width ' ', decide (a = ' ') = true :=
    fun a ha => decide_eq_true (List.eq_of_mem_replicate ha)
  have hdigits : ∀ a ∈ Text.decimal index, decide (a ≠ ' ') = true :=
    fun a ha => decide_eq_true (ne_blank_of_mem_decimal ha)
  -- There is a first digit, and it is where the blanks end.
  have hdrop : (Text.decimal index ++ ' ' :: rest).dropWhile (· = ' ') =
      Text.decimal index ++ ' ' :: rest := by
    cases hdecimal : Text.decimal index with
    | nil =>
      have hread := Text.decimalNumber?_decimal index
      rw [hdecimal] at hread
      cases hread
    | cons d ds =>
      refine List.dropWhile_cons_of_neg ?_
      simpa using hdigits d (hdecimal ▸ List.mem_cons_self)
  rw [List.dropWhile_append_of_pos hblanks, hdrop, List.takeWhile_append_of_pos hdigits,
    List.takeWhile_cons_of_neg (by simp), List.append_nil]
  exact Text.decimalNumber?_decimal index

/-- **The number of a line is read back.** -/
theorem legendIndex?_of_legendLine? {tok : Token} {index : Nat} {line : String}
    (h : tok.legendLine? index = some line) : legendIndex? line = some index := by
  rw [Token.legendLine?, Option.map_eq_some_iff] at h
  obtain ⟨c, _, rfl⟩ := h
  have hline : (padLeft 4 (toString index) ++ "  " ++ padRight 12 tok.text ++ " " ++
      c.toHex).toList = List.replicate (4 - (toString index).length) ' ' ++
        (Text.decimal index ++ ' ' :: ' ' :: (padRight 12 tok.text ++ " " ++ c.toHex).toList) := by
    simp [padLeft, Text.decimal]
  rw [legendIndex?, hline]
  exact decimalNumber?_of_blanks _ index _

/-- Just the colored tokens have a line. -/
theorem isSome_legendLine? (t : Tree) (id : NodeId) (index : Nat) :
    ((t.token? id).bind (Token.legendLine? index)).isSome = t.isColored id := by
  rw [isColored, shows]
  cases t.token? id with
  | none => rfl
  | some tok => exact Option.isSome_map

/-- The lines for tokens that are numbered from some place on. -/
theorem forall₂_legendFrom (t : Tree) (ids : List NodeId) (first : Nat) :
    List.Forall₂ (fun line id => ∃ i, ids[i]? = some id ∧
        (t.token? id).bind (Token.legendLine? (first + i)) = some line)
      ((ids.zipIdx first).filterMap fun (id, index) =>
        (t.token? id).bind (Token.legendLine? index))
      (ids.filter t.isColored) := by
  induction ids generalizing first with
  | nil => exact .nil
  | cons id ids ih =>
    -- What is said of the other tokens is said of them at the next place.
    have hrest := (ih (first + 1)).imp fun line other h => by
      obtain ⟨i, hi, hline⟩ := h
      rw [Nat.add_right_comm] at hline
      exact (⟨i + 1, hi, hline⟩ : ∃ i, (id :: ids)[i]? = some other ∧
        (t.token? other).bind (Token.legendLine? (first + i)) = some line)
    have hcolored := t.isSome_legendLine? id first
    rw [List.zipIdx_cons, List.filterMap_cons]
    cases hline : (t.token? id).bind (Token.legendLine? first) with
    | none =>
      rw [hline] at hcolored
      rw [List.filter_cons_of_neg (by rw [← hcolored]; decide)]
      simp only [hline]
      exact hrest
    | some line =>
      rw [hline] at hcolored
      rw [List.filter_cons_of_pos hcolored.symm]
      simp only [hline]
      exact .cons ⟨0, rfl, hline⟩ hrest

/-- **The legend, line by line.** There is a line for each colored token, in document order, made
from the place of the token. -/
theorem forall₂_legend (t : Tree) :
    List.Forall₂ (fun line id => ∃ index, t.tokens[index]? = some id ∧
        (t.token? id).bind (Token.legendLine? index) = some line) t.legend t.coloredTokens := by
  refine (t.forall₂_legendFrom t.tokens 0).imp fun line id h => ?_
  simpa only [Nat.zero_add] using h

/-! ### The annotated text -/

/-- The tokens that are flagged, in document order. -/
def matchingTokens (t : Tree) : List NodeId :=
  t.tokens.filter t.isMatching

theorem countP_filterMap_token? (t : Tree) (p : Token → Bool) (ids : List NodeId) :
    (ids.filterMap t.token?).countP p = (ids.filter (t.shows p)).length := by
  rw [List.countP_filterMap, List.countP_eq_length_filter]
  refine congrArg (fun p => (ids.filter p).length) (funext fun id => ?_)
  rw [shows]
  cases t.token? id <;> rfl

/-- **Marks are what is added to the text**: two for every color, and one for every flag. A size is
anything that adds up when texts are joined, and that is one for a mark. -/
theorem size_annotate (t : Tree) {size : String → Nat} (hempty : size "" = 0)
    (happend : ∀ a b, size (a ++ b) = size a + size b)
    (hopening : size "[" = 1) (hclosing : size "]" = 1) (hstar : size "*" = 1) :
    size t.annotate = size t.text + 2 * t.coloredTokens.length + t.matchingTokens.length := by
  have hjoin : ∀ toks : List Token, size (String.join (toks.map Token.annotate)) =
      size (String.join (toks.map (·.text))) + 2 * toks.countP Token.isHighlighted +
        toks.countP (·.matching) := by
    intro toks
    induction toks with
    | nil => simp [hempty]
    | cons tok toks ih =>
      rw [List.map_cons, List.map_cons, String.join_cons, String.join_cons, happend, happend, ih,
        List.countP_cons, List.countP_cons, Token.annotate, happend]
      cases tok.isHighlighted <;> cases tok.matching <;>
        simp only [Bool.false_eq_true, if_true, if_false, happend, hempty, hopening, hclosing,
          hstar] <;> omega
  rw [annotate, hjoin, countP_filterMap_token?, countP_filterMap_token?]
  rfl

end Tree

namespace Highlights

/-! ### The set in document order -/

/-- The highlighted tokens, in document order. -/
def members (h : Highlights) : List NodeId :=
  h.tree.tokens.filter h.isHighlighted

/-- A token with its marks: brackets if it is highlighted, and a star if it is flagged. -/
def annotated (h : Highlights) (id : NodeId) : String :=
  let text := ((h.tree.token? id).map (·.text)).getD ""
  (if h.isHighlighted id then "[" ++ text ++ "]" else text) ++
    if h.tree.isMatching id then "*" else ""

/-- A line of the legend tells of a token: it begins with the only place at which the document has
the token, and to select what is at this place is to select the token. -/
structure Describes (h : Highlights) (line : String) (id : NodeId) : Prop where
  getElem?_iff : ∀ index, h.tree.tokens[index]? = some id ↔ Tree.legendIndex? line = some index
  applySelect : ∀ (o : Options) (s : Session), o.select = Tree.legendIndex? line →
    s.view.tree.cleared = h.tree.cleared →
      o.applySelect s = .ok (s.operate (.select id .byText)).session

variable {h : Highlights} {line : String} {id : NodeId} {index : Nat}

theorem members_eq_coloredTokens (hsound : ∀ id, h.Sound id) :
    h.members = h.tree.coloredTokens :=
  congrArg (h.tree.tokens.filter ·) (funext hsound)

/-- What a token shows goes by its attributes, as far as set and colors agree. -/
theorem annotated_eq {tok : Token} (hs : h.Sound id) (htok : h.tree.token? id = some tok) :
    h.annotated id = tok.annotate := by
  rw [annotated, hs, Tree.isColored, Tree.isMatching, Tree.shows, Tree.shows, htok]
  rfl

theorem annotate_eq_join (hwf : h.tree.WellFormed) (hsound : ∀ id, h.Sound id) :
    h.tree.annotate = String.join (h.tree.tokens.map h.annotated) := by
  rw [Tree.annotate, List.map_filterMap]
  refine congrArg String.join (List.filterMap_eq_map_iff_forall_eq_some.2 fun id hid => ?_)
  obtain ⟨tok, htok⟩ := Option.isSome_iff_exists.1 (hwf.mem_tokens_iff.1 hid)
  rw [htok, annotated_eq (hsound id) htok]
  rfl

theorem describes_of_legendLine? (hwf : h.tree.WellFormed)
    (hid : h.tree.tokens[index]? = some id)
    (hline : (h.tree.token? id).bind (Token.legendLine? index) = some line) :
    h.Describes line id := by
  obtain ⟨tok, _, htok⟩ := Option.bind_eq_some_iff.1 hline
  have hindex : Tree.legendIndex? line = some index := Tree.legendIndex?_of_legendLine? htok
  constructor
  · intro other
    rw [hindex, Option.some_inj, ← hid, eq_comm,
      List.getElem?_inj (List.getElem?_eq_some_iff.1 hid).1 hwf.nodup_tokens]
  · intro o s ho hcleared
    have htokens : s.view.tree.tokens = h.tree.tokens :=
      Tree.congr_of_cleared Tree.tokens Tree.tokens_cleared hcleared
    simp only [Options.applySelect, ho, hindex, htokens, hid]

/-! ### The contract of rendering -/

/-- **What is rendered shows the set, in every state of every run.** The legend has a line for each
member of the set, in document order, and the number in it is the place by which the token is
selected. In the annotated text just the members stand in brackets, and just the flagged tokens have
a star, so it is longer than the text by two for each member and by one for each flag. -/
theorem rendering_shows_set {tree : Tree} (htree : tree.Reachable) (hplain : tree.IsPlain)
    (palette : Palette) {steps : List Step} (hsteps : ∀ s ∈ steps, s.IsPlain) :
    let h := (start tree palette).run steps
    h.members.Perm h.marked.toList ∧
    h.tree.legend.length = h.count ∧
    List.Forall₂ h.Describes h.tree.legend h.members ∧
    h.tree.annotate = String.join (h.tree.tokens.map h.annotated) ∧
    h.tree.annotate.length = h.tree.text.length + 2 * h.count + h.tree.matchingTokens.length ∧
    h.tree.annotate.utf8ByteSize =
      h.tree.text.utf8ByteSize + 2 * h.count + h.tree.matchingTokens.length := by
  intro h
  have hwf : h.tree.WellFormed := wellFormed_run htree palette hsteps
  have hsound : ∀ id, h.Sound id := sound_run hplain palette hsteps
  have hmembers : h.members = h.tree.coloredTokens := members_eq_coloredTokens hsound
  have hcount : h.tree.coloredTokens.length = h.count := (count_eq_length hwf hsound).symm
  have hlegend : List.Forall₂ h.Describes h.tree.legend h.tree.coloredTokens :=
    h.tree.forall₂_legend.imp fun line id hline => by
      obtain ⟨index, hid, hline⟩ := hline
      exact describes_of_legendLine? hwf hid hline
  refine ⟨hmembers ▸ (toList_marked_perm hwf hsound).symm, hlegend.length_eq.trans hcount,
    hmembers ▸ hlegend, annotate_eq_join hwf hsound, ?_, ?_⟩
  · rw [← hcount]
    exact h.tree.size_annotate rfl String.length_append rfl rfl rfl
  · rw [← hcount]
    exact h.tree.size_annotate rfl (fun _ _ => String.utf8ByteSize_append) rfl rfl rfl

/-- A run that highlights a variable, the gap behind it and a brace, which is flagged as well. The
last line is that of the brace, and its number is the place of the brace. -/
theorem rendering_shows_set_sample :
    let h := (start Tree.sample .default).run ((sampleSteps (.rgb 0 0 200)).take 6)
    h.tree.legend.length = 4 ∧ h.Describes "  10  \x7d            #0000c8" 12 ∧
      h.tree.annotate = "f([x][,][z])\x7b(y)[\x7d]*" ∧ h.tree.annotate.length = 11 + 2 * 4 + 1 := by
  intro h
  have hsteps : ∀ s ∈ (sampleSteps (.rgb 0 0 200)).take 6, s.IsPlain :=
    fun s hs => isPlain_sampleSteps _ s (List.mem_of_mem_take hs)
  obtain ⟨_, hlength, hlines, htext, hsize, _⟩ :=
    rendering_shows_set Tree.reachable_sample Tree.isPlain_sample .default hsteps
  have hcount : h.count = 4 := by decide +kernel
  have hlegend : h.tree.legend = ["   2  x            #0000c8", "   3  ,            #0000c8",
      "   4  z            #0000c8", "  10  \x7d            #0000c8"] := by decide +kernel
  have hmembers : h.members = [4, 13, 14, 12] := by decide +kernel
  have hannotated : String.join (h.tree.tokens.map h.annotated) =
      "f([x][,][z])\x7b(y)[\x7d]*" := by decide +kernel
  have htextLength : h.tree.text.length = 11 := by decide +kernel
  have hmatching : h.tree.matchingTokens.length = 1 := by decide +kernel
  refine ⟨hlength.trans hcount, ?_, htext.trans hannotated, ?_⟩
  · rw [hlegend, hmembers] at hlines
    obtain _ | ⟨_, _ | ⟨_, _ | ⟨_, _ | ⟨hbrace, _⟩⟩⟩⟩ := hlines
    exact hbrace
  · rw [hsize, hcount, htextLength, hmatching]

end Highlights

end TokenHighlight
