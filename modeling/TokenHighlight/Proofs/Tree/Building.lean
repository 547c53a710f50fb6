import TokenHighlight.Proofs.Tree.Numbering
import TokenHighlight.Tree.Builder

/-!
# Building what is described

A builder is driven by calls that come one after the other, and a description is nested. The calls
describe something all the same: a group lies in the group that was open when it was opened, and a
close that comes when only the root is open is passed over. `Draft` reads calls in this way, without
a tree. A draft holds what the innermost open group has in it so far, and what the groups around it
have in them.

`Mirrors` ties the two together. It says that a builder comes about by appending what a draft holds,
frame by frame: the outermost frame to the root, each further one to a group opened behind it.
A close turns the topmost frame into the description of a group, at the end of the frame below it.
To append this description is to open a group, to append what is in it, and to close it again, so
that the builder behind the close mirrors the draft behind the close.

Descriptions say nothing of colors and flags, and a token that is handed to a builder may have
either. What mirrors a draft is therefore the builder with its tree cleared.

## Main definitions

* `Builder.Call`, `Builder.call`, `Builder.run`, `Builder.log` — calls, and what they come to
* `Builder.Sound` — open groups are groups
* `Builder.Draft`, `Builder.described` — what calls describe
* `Builder.Mirrors` — a builder holds what a draft says
* `Spec.replay`, `Builder.replayed` — the calls that make what is described

## Main results

* `Builder.filterMap_told_log` — the numbers that calls tell
* `Builder.Mirrors.after`, `Builder.mirrors_run` — calls do to the builder what they do to the draft
* `Builder.replayed_replayAll` — replaying a description appends it
* `Builder.builds_what_is_described` — the whole contract of building
-/

namespace TokenHighlight

namespace Builder

/-! ### Calls -/

/-- What a builder can be asked to do. -/
inductive Call
  | openGroup
  | token (tok : Token)
  | closeGroup
deriving DecidableEq, Repr

namespace Call

/-- Whether a call makes a node. -/
def makesNode : Call → Bool
  | openGroup => true
  | token _ => true
  | closeGroup => false

/-- The call without color and flag of its token. -/
def cleared : Call → Call
  | openGroup => openGroup
  | token tok => token tok.cleared
  | closeGroup => closeGroup

/-- The token of a call has neither color nor flag. -/
def IsPlain (c : Call) : Prop :=
  ∀ tok, c = token tok → tok.IsPlain

theorem IsPlain.cleared_eq {c : Call} (hc : c.IsPlain) : c.cleared = c := by
  cases c with
  | openGroup => rfl
  | token tok => exact congrArg token (Token.isPlain_iff_cleared_eq.1 (hc tok rfl))
  | closeGroup => rfl

end Call

/-- Carries out a call. Those that make a node tell its number. -/
def call (b : Builder) : Call → Except TreeError (Option NodeId × Builder)
  | .openGroup => do
    let (id, b) ← b.openGroup
    return (some id, b)
  | .token tok => do
    let (id, b) ← b.token tok
    return (some id, b)
  | .closeGroup => do
    return (none, ← b.closeGroup)

/-- The builder behind a call, which is the same builder if the call fails. -/
def after (b : Builder) (c : Call) : Builder :=
  match b.call c with
  | .ok (_, b') => b'
  | .error _ => b

/-- The builder behind several calls. -/
def run (b : Builder) (calls : List Call) : Builder :=
  calls.foldl after b

/-- What each of several calls comes to: an error, or the number that it tells, if it tells one. -/
def log (b : Builder) : List Call → List (Call × Except TreeError (Option NodeId))
  | [] => []
  | c :: calls => (c, (b.call c).map (·.1)) :: (b.after c).log calls

/-- A call with the number that it told, if it told one. -/
def told : Call × Except TreeError (Option NodeId) → Option (Call × NodeId)
  | (c, .ok (some id)) => some (c, id)
  | (_, .ok none) => none
  | (_, .error _) => none

/-- All groups that are open are groups of the tree. -/
def Sound (b : Builder) : Prop :=
  ∀ id ∈ b.innermost :: b.outer, b.tree.isGroup id = true

variable {b b' : Builder} {c : Call} {calls : List Call}

theorem run_append_singleton (b : Builder) (calls : List Call) (c : Call) :
    b.run (calls ++ [c]) = (b.run calls).after c := by
  rw [run, List.foldl_append]
  rfl

theorem openGroup_eq (hb : b.Sound) :
    b.openGroup = .ok (b.tree.size,
      ⟨b.tree.grown (.group b.innermost), b.tree.size, b.innermost :: b.outer⟩) := by
  obtain ⟨tree, innermost, outer⟩ := b
  rw [openGroup, Tree.addGroup_of_isGroup (hb innermost List.mem_cons_self)]
  rfl

theorem token_eq (hb : b.Sound) (tok : Token) :
    b.token tok = .ok (b.tree.size,
      { b with tree := b.tree.grown (.token b.innermost tok) }) := by
  obtain ⟨tree, innermost, outer⟩ := b
  rw [token, Tree.addToken_of_isGroup (hb innermost List.mem_cons_self)]
  rfl

theorem call_openGroup (hb : b.Sound) :
    b.call .openGroup = .ok (some b.tree.size,
      ⟨b.tree.grown (.group b.innermost), b.tree.size, b.innermost :: b.outer⟩) := by
  rw [call, openGroup_eq hb]
  rfl

theorem call_token (hb : b.Sound) (tok : Token) :
    b.call (.token tok) = .ok (some b.tree.size,
      { b with tree := b.tree.grown (.token b.innermost tok) }) := by
  rw [call, token_eq hb]
  rfl

theorem call_closeGroup_of_nil (h : b.outer = []) :
    b.call .closeGroup = .error .unbalancedGroup := by
  rw [call, closeGroup, h]
  rfl

theorem call_closeGroup_of_cons {next : NodeId} {outer : List NodeId}
    (h : b.outer = next :: outer) :
    b.call .closeGroup = .ok (none, { b with innermost := next, outer }) := by
  rw [call, closeGroup, h]
  rfl

theorem closeGroup_eq_error_iff {e : TreeError} :
    b.closeGroup = .error e ↔ e = .unbalancedGroup ∧ b.outer = [] := by
  rw [closeGroup]
  split
  · next h => simp [h, eq_comm]
  · next h => simp [h]

theorem finish_eq_ok_iff {tree : Tree} : b.finish = .ok tree ↔ b.outer = [] ∧ b.tree = tree := by
  rw [finish]
  split
  · next h => simp [h]
  · next h => exact iff_of_false (fun hok => nomatch hok) fun hok => h hok.1

theorem after_of_call_eq_ok {r : Option NodeId} (h : b.call c = .ok (r, b')) : b.after c = b' := by
  rw [after, h]

theorem after_of_call_eq_error {e : TreeError} (h : b.call c = .error e) : b.after c = b := by
  rw [after, h]

/-! ### Open groups -/

theorem sound_new : new.Sound := by
  intro id hid
  rw [List.mem_singleton.1 hid]
  rfl

/-- Every call leaves only groups open. -/
theorem Sound.after (hb : b.Sound) (c : Call) : (b.after c).Sound := by
  have hinnermost : b.tree.isGroup b.innermost = true := hb _ List.mem_cons_self
  cases c with
  | openGroup =>
    rw [after_of_call_eq_ok (call_openGroup hb)]
    intro id hid
    rcases List.mem_cons.1 hid with rfl | hid
    · exact Tree.isGroup_grown_group hinnermost
    · exact Tree.isGroup_grown (x := .group b.innermost) hinnermost (hb id hid)
  | token tok =>
    rw [after_of_call_eq_ok (call_token hb tok)]
    intro id hid
    exact Tree.isGroup_grown (x := .token b.innermost tok) hinnermost (hb id hid)
  | closeGroup =>
    cases houter : b.outer with
    | nil =>
      rw [after_of_call_eq_error (call_closeGroup_of_nil houter)]
      exact hb
    | cons next outer =>
      rw [after_of_call_eq_ok (call_closeGroup_of_cons houter)]
      intro id hid
      refine hb id (List.mem_cons_of_mem _ ?_)
      rw [houter]
      exact hid

theorem sound_run (calls : List Call) : (new.run calls).Sound := by
  induction calls using List.reverseRecOn with
  | nil => exact sound_new
  | append_singleton calls c ih =>
    rw [run_append_singleton]
    exact ih.after c

/-! ### Numbers that are told -/

/-- A call tells a number just if it makes a node, and it is the next one. -/
theorem told_call_and_size_after (hb : b.Sound) (c : Call) :
    told (c, (b.call c).map (·.1)) = (if c.makesNode then some (c, b.tree.size) else none) ∧
      (b.after c).tree.size = if c.makesNode then b.tree.size + 1 else b.tree.size := by
  have hinnermost : b.tree.isGroup b.innermost = true := hb _ List.mem_cons_self
  cases c with
  | openGroup =>
    rw [after_of_call_eq_ok (call_openGroup hb), call_openGroup hb]
    exact ⟨rfl, (Tree.extends_grown (a := .group b.innermost) hinnermost).size⟩
  | token tok =>
    rw [after_of_call_eq_ok (call_token hb tok), call_token hb]
    exact ⟨rfl, (Tree.extends_grown (a := .token b.innermost tok) hinnermost).size⟩
  | closeGroup =>
    cases houter : b.outer with
    | nil =>
      rw [after_of_call_eq_error (call_closeGroup_of_nil houter), call_closeGroup_of_nil houter]
      exact ⟨rfl, rfl⟩
    | cons next outer =>
      rw [after_of_call_eq_ok (call_closeGroup_of_cons houter), call_closeGroup_of_cons houter]
      exact ⟨rfl, rfl⟩

/-- **The numbers that are told.** All calls that make nodes succeed, and number them one after the
other. -/
theorem filterMap_told_log (hb : b.Sound) (calls : List Call) :
    (b.log calls).filterMap told = (calls.filter Call.makesNode).zipIdx b.tree.size := by
  induction calls generalizing b with
  | nil => rfl
  | cons c calls ih =>
    obtain ⟨htold, hsize⟩ := told_call_and_size_after hb c
    rw [log, List.filterMap_cons, htold, ih (hb.after c), hsize]
    cases hc : c.makesNode with
    | true =>
      rw [List.filter_cons_of_pos hc, List.zipIdx_cons]
      rfl
    | false =>
      rw [List.filter_cons_of_neg (by rw [hc]; exact Bool.false_ne_true)]
      rfl

/-! ### What calls describe -/

/-- A description in progress: what is in the innermost open group so far, and what is in the groups
around it, nearest first. -/
structure Draft where
  siblings : List Spec
  outer : List (List Spec)

namespace Draft

/-- The draft behind a call. A close is passed over if no group but the root is open. -/
def step : Draft → Call → Draft
  | ⟨siblings, outer⟩, .openGroup => ⟨[], siblings :: outer⟩
  | ⟨siblings, outer⟩, .token tok => ⟨siblings ++ [.token tok.toTokenData], outer⟩
  | ⟨siblings, []⟩, .closeGroup => ⟨siblings, []⟩
  | ⟨siblings, around :: outer⟩, .closeGroup => ⟨around ++ [.group siblings], outer⟩

/-- The draft that calls make. -/
def ofCalls (calls : List Call) : Draft :=
  calls.foldl step ⟨[], []⟩

/-- The description, if every group that was opened has been closed. -/
def finish : Draft → Option Spec
  | ⟨siblings, []⟩ => some (.group siblings)
  | ⟨_, _ :: _⟩ => none

theorem ofCalls_append_singleton (calls : List Call) (c : Call) :
    ofCalls (calls ++ [c]) = (ofCalls calls).step c := by
  rw [ofCalls, List.foldl_append]
  rfl

end Draft

/-- What calls describe, if they close every group that they open. -/
def described (calls : List Call) : Option Spec :=
  (Draft.ofCalls calls).finish

end Builder

/-- The call that makes the node of a description. -/
def Spec.opening : Spec → Builder.Call
  | .token data => .token (.plain data)
  | .group _ => .openGroup

namespace Builder

variable {b b' : Builder} {c : Call} {calls : List Call}

namespace Draft

/-- The calls that make the nodes of a draft, in document order. -/
def openings (d : Draft) : List Call :=
  (d.outer.reverse.flatMap fun around => (Spec.partsAll around).map Spec.opening ++ [.openGroup]) ++
    (Spec.partsAll d.siblings).map Spec.opening

theorem openings_step (d : Draft) (c : Call) :
    (d.step c).openings = d.openings ++ if c.makesNode then [c.cleared] else [] := by
  obtain ⟨siblings, outer⟩ := d
  cases c with
  | openGroup => simp [step, openings, Spec.partsAll, Call.makesNode, Call.cleared]
  | token tok =>
    simp [step, openings, Spec.partsAll_append, Spec.partsAll_singleton, Spec.parts, Spec.opening,
      Call.makesNode, Call.cleared, Token.cleared, Token.plain]
  | closeGroup =>
    cases outer with
    | nil => simp [step, Call.makesNode]
    | cons around outer =>
      simp [step, openings, Spec.partsAll_append, Spec.partsAll_singleton, Spec.parts, Spec.opening,
        Call.makesNode]

/-- A draft has the nodes that calls make, in the order of the calls. -/
theorem openings_ofCalls (calls : List Call) :
    (ofCalls calls).openings = (calls.filter Call.makesNode).map Call.cleared := by
  induction calls using List.reverseRecOn with
  | nil => rfl
  | append_singleton calls c ih =>
    rw [ofCalls_append_singleton, openings_step, ih, List.filter_append, List.map_append]
    cases hc : c.makesNode <;> simp [hc]

end Draft

/-! ### Appending descriptions -/

/-- Appends what is described to the innermost open group. -/
def add (b : Builder) (s : Spec) : Except TreeError Builder := do
  return { b with tree := ← s.addTo b.tree b.innermost }

/-- Appends several descriptions to the innermost open group. -/
def addAll (b : Builder) (specs : List Spec) : Except TreeError Builder := do
  return { b with tree := ← Spec.addAllTo b.tree b.innermost specs }

theorem addAll_nil (b : Builder) : b.addAll [] = .ok b := rfl

theorem addAll_cons (b : Builder) (s : Spec) (rest : List Spec) :
    b.addAll (s :: rest) = (do (← b.add s).addAll rest) := by
  rw [addAll, Spec.addAllTo, add]
  cases s.addTo b.tree b.innermost with
  | ok t => rfl
  | error e => rfl

theorem addAll_append_singleton (b : Builder) (specs : List Spec) (s : Spec) :
    b.addAll (specs ++ [s]) = (do (← b.addAll specs).add s) := by
  induction specs generalizing b with
  | nil =>
    rw [List.nil_append, addAll_cons]
    change (do (← b.add s).addAll []) = b.add s
    cases b.add s with
    | ok b' => rfl
    | error e => rfl
  | cons s' specs ih =>
    rw [List.cons_append, addAll_cons, addAll_cons]
    cases b.add s' with
    | ok b' => exact ih b'
    | error e => rfl

/-- What is appended goes into the innermost group, and which groups are open stays the same. -/
theorem addAll_eq_ok_iff {specs : List Spec} :
    b.addAll specs = .ok b' ↔
      ∃ t, Spec.addAllTo b.tree b.innermost specs = .ok t ∧ b' = { b with tree := t } := by
  rw [addAll]
  cases hall : Spec.addAllTo b.tree b.innermost specs with
  | ok t =>
    constructor
    · intro h
      exact ⟨t, rfl, (Except.ok.inj h).symm⟩
    · rintro ⟨_, ⟨⟩, rfl⟩
      rfl
  | error e =>
    constructor
    · intro h
      cases h
    · rintro ⟨_, h, _⟩
      cases h

theorem outer_of_addAll {specs : List Spec} (h : b.addAll specs = .ok b') : b'.outer = b.outer := by
  obtain ⟨t, _, rfl⟩ := addAll_eq_ok_iff.1 h
  rfl

theorem outer_of_openGroup {id : NodeId} (h : b.openGroup = .ok (id, b')) :
    b'.outer = b.innermost :: b.outer := by
  obtain ⟨tree, innermost, outer⟩ := b
  rw [openGroup] at h
  cases hadd : tree.addGroup innermost with
  | ok r =>
    rw [hadd] at h
    cases h
    rfl
  | error e =>
    rw [hadd] at h
    cases h

/-- To append a token is to add it. -/
theorem add_token (b : Builder) (data : TokenData) :
    b.add (.token data) = (b.token (.plain data)).map (·.2) := by
  obtain ⟨tree, innermost, outer⟩ := b
  rw [add, Spec.addTo, token]
  cases tree.addToken innermost (.plain data) with
  | ok r => rfl
  | error e => rfl

/-- **To append a group is to open it, to append what is in it, and to close it.** -/
theorem add_group (b : Builder) (children : List Spec) :
    b.add (.group children) = (do
      let (_, b) ← b.openGroup
      let b ← b.addAll children
      b.closeGroup) := by
  obtain ⟨tree, innermost, outer⟩ := b
  rw [add, Spec.addTo, openGroup]
  cases tree.addGroup innermost with
  | ok r =>
    obtain ⟨id, t⟩ := r
    change (do return (⟨← Spec.addAllTo t id children, innermost, outer⟩ : Builder)) =
      (do (← (⟨t, id, innermost :: outer⟩ : Builder).addAll children).closeGroup)
    rw [addAll]
    cases Spec.addAllTo t id children with
    | ok t' => rfl
    | error e => rfl
  | error e => rfl

/-! ### Builders and drafts -/

/-- A builder comes about by appending what a draft holds: the outermost frame to the root, and each
further one to a group that is opened behind the frame around it. -/
inductive Mirrors : Builder → Draft → Prop
  | root {b : Builder} {siblings : List Spec} (h : new.addAll siblings = .ok b) :
      Mirrors b ⟨siblings, []⟩
  | group {b around opened : Builder} {id : NodeId} {siblings before : List Spec}
      {outer : List (List Spec)} (h : Mirrors around ⟨before, outer⟩)
      (hopen : around.openGroup = .ok (id, opened)) (hall : opened.addAll siblings = .ok b) :
      Mirrors b ⟨siblings, before :: outer⟩

theorem Mirrors.add {siblings : List Spec} {outer : List (List Spec)} {s : Spec}
    (h : Mirrors b ⟨siblings, outer⟩) (hadd : b.add s = .ok b') :
    Mirrors b' ⟨siblings ++ [s], outer⟩ := by
  cases h with
  | root h =>
    refine .root ?_
    rw [addAll_append_singleton, h]
    exact hadd
  | group h hopen hall =>
    refine .group h hopen ?_
    rw [addAll_append_singleton, hall]
    exact hadd

/-- A close turns the topmost frame into a group of the frame below it. -/
theorem Mirrors.close {siblings before : List Spec} {outer : List (List Spec)}
    (h : Mirrors b ⟨siblings, before :: outer⟩) :
    ∃ b', b.closeGroup = .ok b' ∧ Mirrors b' ⟨before ++ [.group siblings], outer⟩ := by
  cases h with
  | @group _ around opened id _ _ _ h hopen hall =>
    have hadd : around.add (.group siblings) = b.closeGroup := by
      rw [add_group, hopen]
      change (do (← opened.addAll siblings).closeGroup) = b.closeGroup
      rw [hall]
      rfl
    have houter : b.outer = around.innermost :: around.outer :=
      (outer_of_addAll hall).trans (outer_of_openGroup hopen)
    obtain ⟨b', hclose⟩ : ∃ b', b.closeGroup = .ok b' := by
      rw [closeGroup, houter]
      exact ⟨_, rfl⟩
    exact ⟨b', hclose, h.add (hadd.trans hclose)⟩

/-- A builder has only the root open just if the draft does. -/
theorem Mirrors.outer_eq_nil_iff {d : Draft} (h : Mirrors b d) : b.outer = [] ↔ d.outer = [] := by
  cases h with
  | root h => exact iff_of_true (outer_of_addAll h) rfl
  | group h hopen hall =>
    refine iff_of_false ?_ (List.cons_ne_nil _ _)
    rw [outer_of_addAll hall, outer_of_openGroup hopen]
    exact List.cons_ne_nil _ _

/-! ### Colors and flags -/

/-- The builder without the colors and flags of its tree. -/
def cleared (b : Builder) : Builder :=
  { b with tree := b.tree.cleared }

theorem Sound.cleared (hb : b.Sound) : b.cleared.Sound := by
  intro id hid
  exact (b.tree.isGroup_cleared id).trans (hb id hid)

/-- Clearing a builder behind a call comes to calling the cleared one. -/
theorem cleared_after (hb : b.Sound) (c : Call) :
    (b.after c).cleared = b.cleared.after c.cleared := by
  cases c with
  | openGroup =>
    rw [after_of_call_eq_ok (call_openGroup hb)]
    refine Eq.trans ?_ (after_of_call_eq_ok (call_openGroup hb.cleared)).symm
    rw [Builder.cleared, Tree.cleared_grown, Builder.cleared, Tree.size_cleared]
    rfl
  | token tok =>
    rw [after_of_call_eq_ok (call_token hb tok)]
    refine Eq.trans ?_ (after_of_call_eq_ok (call_token hb.cleared tok.cleared)).symm
    rw [Builder.cleared, Tree.cleared_grown]
    rfl
  | closeGroup =>
    cases houter : b.outer with
    | nil =>
      have houter' : b.cleared.outer = [] := houter
      rw [after_of_call_eq_error (call_closeGroup_of_nil houter), Call.cleared,
        after_of_call_eq_error (call_closeGroup_of_nil houter')]
    | cons next outer =>
      have houter' : b.cleared.outer = next :: outer := houter
      rw [after_of_call_eq_ok (call_closeGroup_of_cons houter), Call.cleared,
        after_of_call_eq_ok (call_closeGroup_of_cons houter')]
      rfl

theorem cleared_new : new.cleared = new := by
  rw [cleared, new, Tree.isPlain_empty.cleared_eq]

/-- Without colors and flags in the calls there are none in the tree. -/
theorem cleared_run_of_isPlain (hcalls : ∀ c ∈ calls, c.IsPlain) :
    (new.run calls).cleared = new.run calls := by
  induction calls using List.reverseRecOn with
  | nil => exact cleared_new
  | append_singleton calls c ih =>
    have hc : c.IsPlain := hcalls c (by simp)
    have hrun := ih fun c' hc' => hcalls c' (List.mem_append_left [c] hc')
    rw [run_append_singleton, cleared_after (sound_run calls), hrun, hc.cleared_eq]

/-! ### The simulation -/

/-- **A call does to the builder what it does to the draft**, apart from color and flag. -/
theorem Mirrors.after {d : Draft} (h : Mirrors b d) (hb : b.Sound) (c : Call) :
    Mirrors (b.after c.cleared) (d.step c) := by
  obtain ⟨siblings, outer⟩ := d
  cases c with
  | openGroup =>
    rw [Call.cleared, after_of_call_eq_ok (call_openGroup hb)]
    exact .group h (openGroup_eq hb) (addAll_nil _)
  | token tok =>
    rw [Call.cleared, after_of_call_eq_ok (call_token hb tok.cleared)]
    refine h.add ?_
    rw [add_token, token_eq hb]
    rfl
  | closeGroup =>
    cases outer with
    | nil =>
      rw [Call.cleared,
        after_of_call_eq_error (call_closeGroup_of_nil (h.outer_eq_nil_iff.2 rfl))]
      exact h
    | cons around outer =>
      obtain ⟨b', hclose, hb'⟩ := h.close
      have hcall : b.call .closeGroup = .ok (none, b') := by
        rw [call, hclose]
        rfl
      rw [Call.cleared, after_of_call_eq_ok hcall]
      exact hb'

/-- **The builder behind calls holds what they describe.** -/
theorem mirrors_run (calls : List Call) :
    Mirrors (new.run calls).cleared (Draft.ofCalls calls) := by
  induction calls using List.reverseRecOn with
  | nil =>
    refine .root ?_
    rw [show (new.run []).cleared = new from cleared_new]
    exact addAll_nil new
  | append_singleton calls c ih =>
    rw [run_append_singleton, cleared_after (sound_run calls), Draft.ofCalls_append_singleton]
    exact ih.after (sound_run calls).cleared c

/-- What is finished is the tree of what was described. -/
theorem ofSpec_of_finish {tree : Tree} (h : (new.run calls).finish = .ok tree) :
    ∃ children, Draft.ofCalls calls = ⟨children, []⟩ ∧
      Tree.ofSpec (.group children) = .ok tree.cleared := by
  obtain ⟨houter, rfl⟩ := finish_eq_ok_iff.1 h
  have hmirrors := mirrors_run calls
  have hdraft : (Draft.ofCalls calls).outer = [] := hmirrors.outer_eq_nil_iff.1 houter
  obtain ⟨children, hcalls⟩ : ∃ children, Draft.ofCalls calls = ⟨children, []⟩ :=
    ⟨(Draft.ofCalls calls).siblings, congrArg (Draft.mk _) hdraft⟩
  rw [hcalls] at hmirrors
  refine ⟨children, hcalls, ?_⟩
  cases hmirrors with
  | root hall =>
    obtain ⟨t, ht, htree⟩ := addAll_eq_ok_iff.1 hall
    rw [Tree.ofSpec, show (new.run calls).tree.cleared = t from congrArg Builder.tree htree]
    exact ht

/-- The number that a call told is that of the part which it describes. -/
theorem getElem?_parts_of_mem_log {children : List Spec} {id : NodeId}
    (hcalls : Draft.ofCalls calls = ⟨children, []⟩) (h : (c, .ok (some id)) ∈ new.log calls) :
    ∃ part, (Spec.group children).parts[id]? = some part ∧ part.opening = c.cleared := by
  have htold : (c, id) ∈ (calls.filter Call.makesNode).zipIdx 1 := by
    rw [show 1 = new.tree.size from rfl, ← filterMap_told_log sound_new]
    exact List.mem_filterMap.2 ⟨_, h, rfl⟩
  have hopenings : (Spec.partsAll children).map Spec.opening =
      (calls.filter Call.makesNode).map Call.cleared := by
    rw [← Draft.openings_ofCalls, hcalls]
    rfl
  obtain ⟨hle, hc⟩ := List.mk_mem_zipIdx_iff_le_and_getElem?_sub.1 htold
  have hpart : ((Spec.partsAll children).map Spec.opening)[id - 1]? = some c.cleared := by
    rw [hopenings, List.getElem?_map, hc]
    rfl
  rw [List.getElem?_map, Option.map_eq_some_iff] at hpart
  obtain ⟨part, hpart, hopening⟩ := hpart
  refine ⟨part, ?_, hopening⟩
  obtain ⟨k, rfl⟩ : ∃ k, id = k + 1 := ⟨id - 1, (Nat.sub_add_cancel hle).symm⟩
  exact hpart

/-! ### Replaying a description -/

end Builder

namespace Spec

mutual

/-- The calls that make what is described. -/
def replay : Spec → List Builder.Call
  | .token data => [.token (.plain data)]
  | .group children => .openGroup :: (replayAll children ++ [.closeGroup])

/-- The calls that make what is described, one description after the other. -/
def replayAll : List Spec → List Builder.Call
  | [] => []
  | s :: rest => s.replay ++ replayAll rest

end

end Spec

namespace Builder

variable {b b' : Builder} {calls calls' : List Call}

/-- Carries out calls of which none may fail. -/
def replayed (b : Builder) : List Call → Except TreeError Builder
  | [] => .ok b
  | c :: calls => do
    let (_, b) ← b.call c
    b.replayed calls

theorem replayed_append (b : Builder) (calls calls' : List Call) :
    b.replayed (calls ++ calls') = (do (← b.replayed calls).replayed calls') := by
  induction calls generalizing b with
  | nil => rfl
  | cons c calls ih =>
    rw [List.cons_append, replayed, replayed]
    cases b.call c with
    | ok r => exact ih r.2
    | error e => rfl

/-- If no call fails, the builder is the one behind the calls. -/
theorem run_of_replayed_eq_ok (h : b.replayed calls = .ok b') : b.run calls = b' := by
  induction calls generalizing b with
  | nil =>
    cases h
    rfl
  | cons c calls ih =>
    rw [replayed] at h
    cases hcall : b.call c with
    | ok r =>
      rw [hcall] at h
      rw [run, List.foldl_cons, after_of_call_eq_ok hcall]
      exact ih h
    | error e =>
      rw [hcall] at h
      cases h

mutual

/-- Replaying a description appends it. -/
theorem replayed_replay (s : Spec) (b : Builder) : b.replayed s.replay = b.add s := by
  match s with
  | .token data =>
    rw [Spec.replay, replayed, call, add_token]
    cases b.token (.plain data) with
    | ok r => rfl
    | error e => rfl
  | .group children =>
    rw [Spec.replay, replayed, call, add_group]
    cases b.openGroup with
    | ok r =>
      obtain ⟨id, opened⟩ := r
      change opened.replayed _ = (do (← opened.addAll children).closeGroup)
      rw [replayed_append, replayed_replayAll children opened]
      cases opened.addAll children with
      | ok b' =>
        change b'.replayed [.closeGroup] = b'.closeGroup
        rw [replayed, call]
        cases b'.closeGroup with
        | ok b'' => rfl
        | error e => rfl
      | error e => rfl
    | error e => rfl

/-- **Replaying descriptions appends them.** -/
theorem replayed_replayAll (specs : List Spec) (b : Builder) :
    b.replayed (Spec.replayAll specs) = b.addAll specs := by
  match specs with
  | [] => rfl
  | s :: rest =>
    rw [Spec.replayAll, replayed_append, replayed_replay s, addAll_cons]
    cases b.add s with
    | ok b' => exact replayed_replayAll rest b'
    | error e => rfl

end

/-- Replaying what a group describes makes its tree. -/
theorem exists_replayed (children : List Spec) :
    ∃ b tree, new.replayed (Spec.replayAll children) = .ok b ∧ b.finish = .ok tree ∧
      Tree.ofSpec (.group children) = .ok tree ∧ tree.IsPlain := by
  obtain ⟨tree, htree, _, hplain⟩ := Tree.exists_ofSpec children
  refine ⟨{ new with tree }, tree, ?_, rfl, htree, hplain⟩
  rw [replayed_replayAll]
  exact addAll_eq_ok_iff.2 ⟨tree, htree, rfl⟩

/-! ### The contract of building -/

/-- **Building and describing come to the same trees.** In every run of calls, just the calls that
open a group or add a token tell a number, and they are numbered one after the other; and a close
fails just where the description passes it over. If a tree is finished, what the calls describe has
the same tree, node by node, apart from the colors and flags of tokens that were handed in. The
number that a call told is then the number of the node which the call describes. The other way
round, the calls that replay a description whose root is a group all succeed and finish its tree. -/
theorem builds_what_is_described :
    (∀ calls, (new.log calls).filterMap told = (calls.filter Call.makesNode).zipIdx 1) ∧
    (∀ calls e, (new.run calls).closeGroup = .error e ↔
      e = .unbalancedGroup ∧ (Draft.ofCalls calls).outer = []) ∧
    (∀ calls tree, (new.run calls).finish = .ok tree → ∃ s, described calls = some s ∧
      Tree.ofSpec s = .ok tree.cleared ∧
      ((∀ c ∈ calls, c.IsPlain) → Tree.ofSpec s = .ok tree) ∧
      ∀ c id, (c, .ok (some id)) ∈ new.log calls →
        ∃ part, s.parts[id]? = some part ∧ part.opening = c.cleared ∧ tree.Reads id part) ∧
    ∀ children, let calls := Spec.replayAll children
      described calls = some (.group children) ∧
      ∃ b tree, new.replayed calls = .ok b ∧ new.run calls = b ∧ b.finish = .ok tree ∧
        Tree.ofSpec (.group children) = .ok tree := by
  refine ⟨?_, ?_, ?_, ?_⟩
  · intro calls
    exact filterMap_told_log sound_new calls
  · intro calls e
    rw [closeGroup_eq_error_iff, ← (mirrors_run calls).outer_eq_nil_iff]
    rfl
  · intro calls tree hfinish
    obtain ⟨children, hcalls, hspec⟩ := ofSpec_of_finish hfinish
    refine ⟨.group children, ?_, hspec, ?_, ?_⟩
    · rw [described, hcalls]
      rfl
    · intro hplain
      have htree : tree.cleared = tree := by
        rw [← (finish_eq_ok_iff.1 hfinish).2]
        exact congrArg Builder.tree (cleared_run_of_isPlain hplain)
      rw [hspec, htree]
    · intro c id hid
      obtain ⟨part, hpart, hopening⟩ := getElem?_parts_of_mem_log hcalls hid
      obtain ⟨hsize, hplaced⟩ := Tree.placing_ofSpec hspec
      refine ⟨part, hpart, hopening, Tree.Reads.of_cleared part ?_⟩
      exact (Tree.reads_iff_getElem?_parts hplaced hsize).2 hpart
  · intro children calls
    obtain ⟨b, tree, hreplayed, hfinish, hspec, hplain⟩ := exists_replayed children
    have hrun : new.run calls = b := run_of_replayed_eq_ok hreplayed
    refine ⟨?_, b, tree, hreplayed, hrun, hfinish, hspec⟩
    -- What was described has the same tree as `children`, so it is the same.
    obtain ⟨children', hcalls, hspec'⟩ := ofSpec_of_finish (hrun ▸ hfinish)
    rw [hplain.cleared_eq] at hspec'
    rw [described, hcalls, Tree.ofSpec_injective hspec hspec']
    rfl

example :
    described [.closeGroup, .openGroup, .token (.plain { text := "x" }), .closeGroup, .closeGroup] =
      some (.group [.group [.token { text := "x" }]]) := rfl

end Builder

end TokenHighlight
