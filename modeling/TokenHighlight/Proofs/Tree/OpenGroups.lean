import Mathlib.Data.List.Chain
import TokenHighlight.Proofs.Tree.Building

/-!
# The groups that are open

A builder keeps its innermost open group apart from the groups around it, so there always is one.
It can as well keep all open groups on one stack, and then there is something to prove: that the
stack never runs empty, and that nothing but groups lies on it, for else a node that is to be added
has nowhere to go. `Stacked` is this form of a builder, and it says where it faults. Its nodes have
numbers of a fixed width, so it faults as well if they run out. That is the only fault: up to this
point both forms tell the same, whatever is called.

Which groups are open can be read off the log of a run without a tree. A group that was opened is
open for as long as the calls behind its opening close nothing but what they opened themselves.
`depth?` counts how many groups such a stretch of a log leaves open. What the builder holds is then
described by `IsOpen`, group by group, and the counts of opened and closed groups follow.

`Step` says once what a call does to a builder, and everything that is kept is kept by a step.

## Main definitions

* `Builder.Step` — what a call does
* `Builder.depth?`, `Builder.IsOpen`, `Builder.successes` — reading a log
* `Tree.IsDescent` — groups that lie in each other, from the root inwards
* `Builder.Stacked` — a builder with one stack

## Main results

* `Builder.getElem?_opened_run_iff` — the open groups are those that the log leaves open
* `Builder.isDescent_run` — they lie in each other
* `Builder.Stacked.run?_stacked` — a stack never runs empty, and holds groups
* `Builder.keeps_open_groups` — the whole contract
-/

namespace TokenHighlight

namespace Tree

namespace Extends

variable {t t' : Tree} {a : Addition}

theorem size_le (h : Extends t t' a) : t.size ≤ t'.size := by
  rw [h.size]
  exact Nat.le_succ _

/-- A new node is the last child of its parent. -/
theorem children_parent (h : Extends t t' a) :
    t'.children a.parent = t.children a.parent ++ [t.size] :=
  (h.children a.parent).trans (if_pos rfl)

end Extends

/-- Nodes that lead from the root inwards, each a child of the one before. -/
structure IsDescent (t : Tree) (ids : List NodeId) : Prop where
  head? : ids.head? = some root
  isChain : ids.IsChain fun id child => child ∈ t.children id ∧ t.parent? child = some id

namespace IsDescent

variable {t t' : Tree} {ids : List NodeId} {id child : NodeId} {a : Addition}

theorem singleton_root (t : Tree) : t.IsDescent [root] :=
  ⟨rfl, List.isChain_singleton root⟩

/-- A tree that grows keeps its descents. -/
theorem of_extends (h : t.IsDescent ids) (hextends : Extends t t' a) : t'.IsDescent ids := by
  refine ⟨h.head?, h.isChain.imp ?_⟩
  rintro id child ⟨hmem, hparent⟩
  have hlt : child < t.size := lt_size_of_parent? hparent
  rw [hextends.children, hextends.parent?, if_neg (Nat.ne_of_lt hlt)]
  refine ⟨?_, hparent⟩
  split
  · exact List.mem_append_left _ hmem
  · exact hmem

theorem concat (h : t.IsDescent (ids ++ [id])) (hmem : child ∈ t.children id)
    (hparent : t.parent? child = some id) : t.IsDescent (ids ++ [id] ++ [child]) := by
  refine ⟨?_, List.isChain_append.2 ⟨h.isChain, List.isChain_singleton child, ?_⟩⟩
  · rw [List.head?_append, h.head?, Option.some_or]
  · intro last hlast next hnext
    rw [List.getLast?_concat] at hlast
    cases hlast
    cases hnext
    exact ⟨hmem, hparent⟩

theorem of_append_singleton (h : t.IsDescent (ids ++ [id] ++ [child])) :
    t.IsDescent (ids ++ [id]) := by
  refine ⟨?_, h.isChain.left_of_append⟩
  cases ids with
  | nil => exact h.head?
  | cons first ids => exact h.head?

end IsDescent

end Tree

namespace Builder

/-! ### Steps -/

/-- A call with what it came to. -/
abbrev Entry := Call × Except TreeError (Option NodeId)

/-- What a call makes below a node. -/
def Call.addition? (parent : NodeId) : Call → Option Tree.Addition
  | openGroup => some (.group parent)
  | token tok => some (.token parent tok)
  | closeGroup => none

theorem Call.parent_of_addition? {parent : NodeId} {c : Call} {a : Tree.Addition}
    (h : c.addition? parent = some a) : a.parent = parent := by
  cases c with
  | openGroup =>
    cases h
    rfl
  | token tok =>
    cases h
    rfl
  | closeGroup => cases h

/-- All groups that are open, the innermost one first. -/
def opened (b : Builder) : List NodeId :=
  b.innermost :: b.outer

variable {b b' : Builder} {c : Call} {answer : Except TreeError (Option NodeId)}
  {calls : List Call} {entry : Entry} {entries : List Entry} {id : NodeId} {d : Nat}

/-- What a call does to a builder, and what it comes to. -/
inductive Step (b : Builder) : Entry → Builder → Prop
  | openGroup :
    Step b (.openGroup, .ok (some b.tree.size))
      ⟨b.tree.grown (.group b.innermost), b.tree.size, b.innermost :: b.outer⟩
  | token (tok : Token) :
    Step b (.token tok, .ok (some b.tree.size))
      { b with tree := b.tree.grown (.token b.innermost tok) }
  | unbalanced (h : b.outer = []) : Step b (.closeGroup, .error .unbalancedGroup) b
  | closeGroup {next : NodeId} {outer : List NodeId} (h : b.outer = next :: outer) :
    Step b (.closeGroup, .ok none) { b with innermost := next, outer }

/-- **Every call is a step.** -/
theorem step_call (hb : b.Sound) (c : Call) : Step b (c, (b.call c).map (·.1)) (b.after c) := by
  cases c with
  | openGroup =>
    rw [call_openGroup hb, after_of_call_eq_ok (call_openGroup hb)]
    exact .openGroup
  | token tok =>
    rw [call_token hb, after_of_call_eq_ok (call_token hb tok)]
    exact .token tok
  | closeGroup =>
    cases houter : b.outer with
    | nil =>
      rw [call_closeGroup_of_nil houter, after_of_call_eq_error (call_closeGroup_of_nil houter)]
      exact .unbalanced houter
    | cons next outer =>
      rw [call_closeGroup_of_cons houter, after_of_call_eq_ok (call_closeGroup_of_cons houter)]
      exact .closeGroup houter

/-- What is added to the innermost open group finds a group. -/
theorem Sound.extends_grown {a : Tree.Addition} (hb : b.Sound) (ha : a.parent = b.innermost) :
    b.tree.Extends (b.tree.grown a) a :=
  Tree.extends_grown (by rw [ha]; exact hb _ List.mem_cons_self)

theorem log_append_singleton (b : Builder) (calls : List Call) (c : Call) :
    b.log (calls ++ [c]) = b.log calls ++ [(c, ((b.run calls).call c).map (·.1))] := by
  induction calls generalizing b with
  | nil => rfl
  | cons c' calls ih => exact congrArg ((c', (b.call c').map (·.1)) :: ·) (ih (b.after c'))

/-- What every step keeps holds behind every run, of the log and of the builder. -/
theorem run_induction {P : List Entry → Builder → Prop} (hnew : P [] new)
    (hstep : ∀ entries b entry b', b.Sound → P entries b → Step b entry b' →
      P (entries ++ [entry]) b') (calls : List Call) : P (new.log calls) (new.run calls) := by
  induction calls using List.reverseRecOn with
  | nil => exact hnew
  | append_singleton calls c ih =>
    rw [log_append_singleton, run_append_singleton]
    exact hstep _ _ _ _ (sound_run calls) ih (step_call (sound_run calls) c)

/-- What a call makes is added to the innermost open group. -/
theorem Step.extends (h : Step b (c, answer) b') (hb : b.Sound) {a : Tree.Addition}
    (ha : c.addition? b.innermost = some a) :
    answer = .ok (some b.tree.size) ∧ b.tree.Extends b'.tree a := by
  cases h with
  | openGroup =>
    cases ha
    exact ⟨rfl, hb.extends_grown rfl⟩
  | token tok =>
    cases ha
    exact ⟨rfl, hb.extends_grown rfl⟩
  | unbalanced => cases ha
  | closeGroup => cases ha

/-! ### Reading a log -/

/-- How many calls of some kind succeeded. -/
def successes (c : Call) (entries : List Entry) : Nat :=
  entries.countP fun entry => entry.1 = c && entry.2.isOk

/-- How a call changes the number of groups that are open. With none open, none can be closed. -/
def Entry.depth? : Nat → Entry → Option Nat
  | d, (.openGroup, .ok _) => some (d + 1)
  | d, (.token _, .ok _) => some d
  | 0, (.closeGroup, .ok _) => none
  | d + 1, (.closeGroup, .ok _) => some d
  | d, (_, .error _) => some d

/-- How many of the groups that were opened in a stretch of a log are open at its end. There is no
answer for a stretch that closes a group from before it. -/
def depth? (entries : List Entry) : Option Nat :=
  entries.foldlM Entry.depth? 0

/-- A group is open behind a log, and so many further groups are open inside it. It was opened at
some place, or is the root, and what was logged since leaves the further ones open. -/
def IsOpen (entries : List Entry) (id : NodeId) (inside : Nat) : Prop :=
  (id = Tree.root ∧ depth? entries = some inside) ∨
    ∃ before since, entries = before ++ (.openGroup, .ok (some id)) :: since ∧
      depth? since = some inside

theorem depth?_append_singleton (entries : List Entry) (entry : Entry) :
    depth? (entries ++ [entry]) = (depth? entries).bind (Entry.depth? · entry) := by
  rw [depth?, List.foldlM_append]
  exact congrArg (Option.bind _) (funext fun d => by simp)

/-- Only the root is open at first. -/
theorem isOpen_nil_iff : IsOpen [] id d ↔ id = Tree.root ∧ d = 0 := by
  constructor
  · rintro (⟨hid, hdepth⟩ | ⟨before, since, hentries, _⟩)
    · exact ⟨hid, (Option.some.inj hdepth).symm⟩
    · exact absurd hentries.symm (List.append_ne_nil_of_right_ne_nil _ (List.cons_ne_nil _ _))
  · rintro ⟨rfl, rfl⟩
    exact .inl ⟨rfl, rfl⟩

/-- The groups that are open behind one more call: one that it opened, and those that it leaves
open. -/
theorem isOpen_append_singleton_iff :
    IsOpen (entries ++ [entry]) id d ↔
      (entry = (.openGroup, .ok (some id)) ∧ d = 0) ∨
        ∃ d', IsOpen entries id d' ∧ entry.depth? d' = some d := by
  constructor
  · rintro (⟨hid, hdepth⟩ | ⟨before, since, hentries, hdepth⟩)
    · rw [depth?_append_singleton, Option.bind_eq_some_iff] at hdepth
      obtain ⟨d', hd', hd⟩ := hdepth
      exact .inr ⟨d', .inl ⟨hid, hd'⟩, hd⟩
    · -- The last entry is the opening itself, or it was logged since.
      cases since using List.reverseRecOn with
      | nil =>
        obtain ⟨_, hentry⟩ := List.append_inj' hentries rfl
        exact .inl ⟨List.singleton_inj.1 hentry, (Option.some.inj hdepth).symm⟩
      | append_singleton since last =>
        rw [← List.cons_append, ← List.append_assoc] at hentries
        obtain ⟨hbefore, hlast⟩ := List.append_inj' hentries rfl
        rw [← List.singleton_inj.1 hlast, depth?_append_singleton,
          Option.bind_eq_some_iff] at hdepth
        obtain ⟨d', hd', hd⟩ := hdepth
        exact .inr ⟨d', .inr ⟨before, since, hbefore, hd'⟩, hd⟩
  · rintro (⟨rfl, rfl⟩ | ⟨d', ⟨hid, hd'⟩ | ⟨before, since, rfl, hd'⟩, hd⟩)
    · exact .inr ⟨entries, [], rfl, rfl⟩
    · exact .inl ⟨hid, by rw [depth?_append_singleton, hd']; exact hd⟩
    · refine .inr ⟨before, since ++ [entry], by simp, ?_⟩
      rw [depth?_append_singleton, hd']
      exact hd

theorem successes_append_singleton (c : Call) (entries : List Entry) (entry : Entry) :
    successes c (entries ++ [entry]) =
      successes c entries + if entry.1 = c && entry.2.isOk then 1 else 0 := by
  rw [successes, List.countP_append, List.countP_singleton]
  rfl

/-- A stretch leaves as many groups open as it opens and does not close. -/
theorem successes_eq_of_depth? (h : depth? entries = some d) :
    successes .openGroup entries = successes .closeGroup entries + d := by
  induction entries using List.reverseRecOn generalizing d with
  | nil =>
    cases h
    rfl
  | append_singleton entries entry ih =>
    rw [depth?_append_singleton, Option.bind_eq_some_iff] at h
    obtain ⟨d', hd', hd⟩ := h
    rw [successes_append_singleton, successes_append_singleton, ih hd']
    obtain ⟨c, e | r⟩ := entry
    · cases c <;> cases hd <;> simp [Except.isOk, Except.toBool]
    · cases c with
      | openGroup =>
        cases hd
        simp [Except.isOk, Except.toBool, Nat.add_assoc]
      | token tok =>
        cases hd
        simp
      | closeGroup =>
        cases d' with
        | zero => cases hd
        | succ d' =>
          cases hd
          simp [Except.isOk, Except.toBool]
          omega

/-! ### What steps keep -/

theorem Step.depth? (h : Step b entry b') :
    entry.depth? b.outer.length = some b'.outer.length := by
  cases h with
  | openGroup => rfl
  | token tok => rfl
  | unbalanced => rfl
  | closeGroup houter =>
    rw [houter]
    rfl

/-- The open groups behind a step are one that it opened, and those that it leaves open. -/
theorem Step.getElem?_opened_iff (h : Step b entry b') :
    b'.opened[d]? = some id ↔
      (entry = (.openGroup, .ok (some id)) ∧ d = 0) ∨
        ∃ d', b.opened[d']? = some id ∧ entry.depth? d' = some d := by
  cases h with
  | openGroup =>
    cases d with
    | zero => simp [opened, Entry.depth?]
    | succ d => simp [opened, Entry.depth?]
  | token tok => simp [opened, Entry.depth?]
  | unbalanced => simp [Entry.depth?]
  | @closeGroup next outer houter =>
    rw [show b.opened = b.innermost :: next :: outer from congrArg (b.innermost :: ·) houter]
    constructor
    · intro hd
      exact .inr ⟨d + 1, hd, rfl⟩
    · rintro (⟨hentry, _⟩ | ⟨d', hd', hd⟩)
      · cases hentry
      · cases d' with
        | zero => cases hd
        | succ d' =>
          cases hd
          exact hd'

theorem Step.isDescent (h : Step b entry b') (hb : b.Sound)
    (hdescent : b.tree.IsDescent b.opened.reverse) : b'.tree.IsDescent b'.opened.reverse := by
  rw [opened, List.reverse_cons] at hdescent
  cases h with
  | openGroup =>
    have hextends := hb.extends_grown (a := .group b.innermost) rfl
    rw [opened, List.reverse_cons, List.reverse_cons]
    refine (hdescent.of_extends hextends).concat ?_ ?_
    · exact hextends.children_parent ▸ List.mem_append_right _ List.mem_cons_self
    · exact (hextends.parent? _).trans (if_pos rfl)
  | token tok =>
    rw [opened, List.reverse_cons]
    exact hdescent.of_extends (hb.extends_grown (a := .token b.innermost tok) rfl)
  | unbalanced =>
    rw [opened, List.reverse_cons]
    exact hdescent
  | closeGroup houter =>
    rw [houter, List.reverse_cons] at hdescent
    rw [opened, List.reverse_cons]
    exact hdescent.of_append_singleton

/-! ### What runs keep -/

/-- **The open groups behind a run** are those that its log leaves open, in the same order. -/
theorem getElem?_opened_run_iff (calls : List Call) (id : NodeId) (inside : Nat) :
    (new.run calls).opened[inside]? = some id ↔ IsOpen (new.log calls) id inside := by
  refine run_induction (P := fun entries b =>
    ∀ id inside, b.opened[inside]? = some id ↔ IsOpen entries id inside) ?_ ?_ calls id inside
  · intro id inside
    rw [isOpen_nil_iff]
    cases inside <;> simp [opened, new, eq_comm]
  · intro entries b entry b' _ ih hstep id inside
    rw [hstep.getElem?_opened_iff, isOpen_append_singleton_iff]
    simp only [ih]

theorem depth?_log (calls : List Call) :
    depth? (new.log calls) = some (new.run calls).outer.length := by
  refine run_induction (P := fun entries b => depth? entries = some b.outer.length) rfl ?_ calls
  intro entries b entry b' _ ih hstep
  rw [depth?_append_singleton, ih]
  exact hstep.depth?

/-- There are as many groups around the innermost one as were opened and not closed again. -/
theorem successes_log (calls : List Call) :
    successes .openGroup (new.log calls) =
      successes .closeGroup (new.log calls) + (new.run calls).outer.length :=
  successes_eq_of_depth? (depth?_log calls)

/-- **The open groups lie in each other.** -/
theorem isDescent_run (calls : List Call) :
    (new.run calls).tree.IsDescent (new.run calls).opened.reverse :=
  run_induction (P := fun _ b => b.tree.IsDescent b.opened.reverse)
    (Tree.IsDescent.singleton_root _) (fun _ _ _ _ hb ih hstep => hstep.isDescent hb ih) calls

/-! ### One stack -/

/-- How many nodes can be numbered. -/
def maxNodes : Nat := Nat.pow 2 32

/-- A builder that keeps all open groups on one stack, the innermost one on top. -/
structure Stacked where
  tree : Tree
  stack : Array NodeId

namespace Stacked

/-- An empty tree with only its root open. -/
def new : Stacked :=
  ⟨.empty, #[Tree.root]⟩

/-- What lies on top of the stack. Looking at an empty stack is a fault. -/
def current? (s : Stacked) : Option NodeId :=
  s.stack[s.stack.size - 1]?

/-- Adds a node to the group on top. It is a fault if the stack is empty, if what lies on top is no
group, or if no number is left. -/
def add? (s : Stacked) (addition : NodeId → Tree.Addition) : Option (NodeId × Tree) := do
  let parent ← s.current?
  let result ← ((addition parent).run s.tree).toOption
  if s.tree.size < maxNodes then some result else none

/-- Carries out a call, and tells what it comes to. There is no result if it faults. -/
def call? (s : Stacked) : Call → Option (Except TreeError (Option NodeId) × Stacked)
  | .openGroup => do
    let (id, tree) ← s.add? .group
    return (.ok (some id), ⟨tree, s.stack.push id⟩)
  | .token tok => do
    let (id, tree) ← s.add? (.token · tok)
    return (.ok (some id), ⟨tree, s.stack⟩)
  | .closeGroup =>
    if s.stack.size = 1 then some (.error .unbalancedGroup, s)
    else some (.ok none, ⟨s.tree, s.stack.pop⟩)

/-- Carries out several calls, and logs what each comes to. There is no result if one faults. -/
def run? (s : Stacked) : List Call → Option (List Entry × Stacked)
  | [] => some ([], s)
  | c :: calls => do
    let (answer, s) ← s.call? c
    let (entries, s) ← s.run? calls
    return ((c, answer) :: entries, s)

/-- The tree, if every group that was opened has been closed. To count the groups above the root is
a fault if not even the root is there. -/
def finish? (s : Stacked) : Option (Except TreeError Tree) :=
  match s.stack.size with
  | 0 => none
  | 1 => some (.ok s.tree)
  | groups + 2 => some (.error (.unclosedGroups (groups + 1)))

end Stacked

/-- The builder with its open groups on one stack. -/
def stacked (b : Builder) : Stacked :=
  ⟨b.tree, b.outer.reverse.toArray.push b.innermost⟩

theorem stacked_new : new.stacked = Stacked.new := rfl

theorem toList_stack_stacked (b : Builder) : b.stacked.stack.toList = b.opened.reverse := by
  simp [stacked, opened]

theorem size_stack_stacked (b : Builder) : b.stacked.stack.size = b.outer.length + 1 := by
  simp [stacked]

theorem current?_stacked (b : Builder) : b.stacked.current? = some b.innermost := by
  simp [Stacked.current?, stacked]

/-- A node can be added as long as there are numbers left. -/
theorem add?_stacked {addition : NodeId → Tree.Addition} (hb : b.Sound)
    (hparent : (addition b.innermost).parent = b.innermost) :
    b.stacked.add? addition =
      if b.tree.size < maxNodes then some (b.tree.size, b.tree.grown (addition b.innermost))
      else none := by
  have hrun : (addition b.innermost).run b.tree =
      .ok (b.tree.size, b.tree.grown (addition b.innermost)) :=
    Tree.Addition.run_eq_ok_iff.2 ⟨by rw [hparent]; exact hb _ List.mem_cons_self, rfl, rfl⟩
  rw [Stacked.add?, current?_stacked]
  change (((addition b.innermost).run b.tree).toOption.bind fun result =>
    if b.tree.size < maxNodes then some result else none) = _
  rw [hrun]
  rfl

/-- There is a number for one more node just if not all are used up. -/
theorem size_grown_le_iff {a : Tree.Addition} (hb : b.Sound) (hparent : a.parent = b.innermost) :
    (b.tree.grown a).size ≤ maxNodes ↔ b.tree.size < maxNodes := by
  rw [(hb.extends_grown hparent).size]
  exact Nat.succ_le_iff

/-- **A call does the same to both forms**, as long as there are numbers left. -/
theorem Step.call?_stacked (h : Step b (c, answer) b') (hb : b.Sound)
    (hsize : b.tree.size ≤ maxNodes) :
    b.stacked.call? c = if b'.tree.size ≤ maxNodes then some (answer, b'.stacked) else none := by
  cases h with
  | openGroup =>
    simp only [size_grown_le_iff (a := .group b.innermost) hb rfl]
    rw [Stacked.call?, add?_stacked hb rfl]
    split
    · simp [stacked]
    · rfl
  | token tok =>
    simp only [size_grown_le_iff (a := .token b.innermost tok) hb rfl]
    rw [Stacked.call?, add?_stacked hb rfl]
    split <;> rfl
  | unbalanced houter =>
    rw [Stacked.call?, if_pos (by rw [size_stack_stacked, houter]; rfl), if_pos hsize]
  | closeGroup houter =>
    rw [Stacked.call?, if_neg (by rw [size_stack_stacked, houter]; simp), if_pos hsize]
    simp [stacked, houter]

theorem Step.size_le (h : Step b entry b') (hb : b.Sound) : b.tree.size ≤ b'.tree.size := by
  cases h with
  | openGroup => exact (hb.extends_grown (a := .group b.innermost) rfl).size_le
  | token tok => exact (hb.extends_grown (a := .token b.innermost tok) rfl).size_le
  | unbalanced => exact Nat.le_refl _
  | closeGroup => exact Nat.le_refl _

theorem size_le_size_run (hb : b.Sound) (calls : List Call) :
    b.tree.size ≤ (b.run calls).tree.size := by
  induction calls generalizing b with
  | nil => exact Nat.le_refl _
  | cons c calls ih => exact ((step_call hb c).size_le hb).trans (ih (hb.after c))

/-- **A stack never runs empty, and holds groups.** A run faults only if its tree would have more
nodes than can be numbered. -/
theorem run?_stacked (hb : b.Sound) (hsize : b.tree.size ≤ maxNodes) (calls : List Call) :
    b.stacked.run? calls =
      if (b.run calls).tree.size ≤ maxNodes then some (b.log calls, (b.run calls).stacked)
      else none := by
  induction calls generalizing b with
  | nil => exact (if_pos hsize).symm
  | cons c calls ih =>
    have hrun : b.run (c :: calls) = (b.after c).run calls := rfl
    rw [Stacked.run?, (step_call hb c).call?_stacked hb hsize, hrun]
    by_cases hafter : (b.after c).tree.size ≤ maxNodes
    · rw [if_pos hafter]
      change ((b.after c).stacked.run? calls).bind _ = _
      rw [ih (hb.after c) hafter]
      split <;> rfl
    · -- Trees only grow, so what is too large stays too large.
      have hle := size_le_size_run (hb.after c) calls
      rw [if_neg hafter, if_neg fun h => hafter (hle.trans h)]
      rfl

theorem finish?_stacked (b : Builder) : b.stacked.finish? = some b.finish := by
  rw [Stacked.finish?, size_stack_stacked, finish]
  cases b.outer with
  | nil => rfl
  | cons next outer => rfl

/-! ### The contract of open groups -/

/-- All calls that open a group succeed. -/
theorem successes_openGroup_log (hb : b.Sound) (calls : List Call) :
    successes .openGroup (b.log calls) = calls.count .openGroup := by
  induction calls generalizing b with
  | nil => rfl
  | cons c calls ih =>
    have hrest := ih (hb.after c)
    rw [successes] at hrest ⊢
    rw [log, List.countP_cons, List.count_cons, hrest]
    cases c with
    | openGroup =>
      rw [call_openGroup hb]
      rfl
    | token tok => rfl
    | closeGroup => rfl

/-- A builder is finished if only the root is open, and else tells how many other groups are. -/
theorem finish_eq (b : Builder) :
    b.finish =
      if b.outer.length = 0 then .ok b.tree else .error (.unclosedGroups b.outer.length) := by
  rw [finish]
  cases b.outer with
  | nil => rfl
  | cons next outer => rfl

/-- **Builders keep their open groups in order.** Whatever is called from the start, a builder with
one stack never faults as long as its nodes can be numbered, and it tells the same as the builder
that keeps the innermost group apart. Its stack is the root with groups on it, each a child of the
one below. These are the groups that the log leaves open, so what a call makes becomes the last
child of the innermost group that is open. A close fails just if as many groups were closed before
as were opened, and changes nothing then. The tree can be finished just if this is so in the end. -/
theorem keeps_open_groups (calls : List Call) :
    let b := new.run calls
    let entries := new.log calls
    let stack := b.stacked.stack.toList
    let opens := calls.count .openGroup
    let closes := successes .closeGroup entries
    Stacked.new.run? calls =
      (if b.tree.size ≤ maxNodes then some (entries, b.stacked) else none) ∧
    ((∀ id ∈ stack, b.tree.isGroup id = true) ∧ b.tree.IsDescent stack) ∧
    (∀ id inside, stack.reverse[inside]? = some id ↔ IsOpen entries id inside) ∧
    (∀ parent, IsOpen entries parent 0 → ∀ c a, c.addition? parent = some a →
      ∃ b', b.call c = .ok (some b.tree.size, b') ∧ b.tree.Extends b'.tree a ∧
        b'.tree.children parent = b.tree.children parent ++ [b.tree.size]) ∧
    (closes ≤ opens ∧
      (∀ e, b.closeGroup = .error e ↔ e = .unbalancedGroup ∧ closes = opens) ∧
      (closes = opens →
        b.stacked.call? .closeGroup = some (.error .unbalancedGroup, b.stacked))) ∧
    b.finish =
      (if opens = closes then .ok b.tree else .error (.unclosedGroups (opens - closes))) ∧
    b.stacked.finish? = some b.finish := by
  intro b entries stack opens closes
  have hb : b.Sound := sound_run calls
  have hstack : stack = b.opened.reverse := toList_stack_stacked b
  have hopens : opens = closes + b.outer.length :=
    (successes_openGroup_log sound_new calls).symm.trans (successes_log calls)
  have hnone : closes = opens ↔ b.outer = [] := by
    rw [← List.length_eq_zero_iff]
    omega
  have hopen : ∀ id inside, stack.reverse[inside]? = some id ↔ IsOpen entries id inside := by
    intro id inside
    rw [hstack, List.reverse_reverse]
    exact getElem?_opened_run_iff calls id inside
  refine ⟨?_, ⟨?_, ?_⟩, hopen, ?_, ⟨?_, ?_, ?_⟩, ?_, finish?_stacked b⟩
  · rw [← stacked_new]
    exact run?_stacked sound_new (by decide) calls
  · intro id hid
    rw [hstack, List.mem_reverse] at hid
    exact hb id hid
  · rw [hstack]
    exact isDescent_run calls
  · intro parent hparent c a ha
    rw [← hopen, hstack, List.reverse_reverse] at hparent
    cases hparent
    obtain ⟨hanswer, hextends⟩ := (step_call hb c).extends hb ha
    cases hcall : b.call c with
    | error e =>
      rw [hcall] at hanswer
      cases hanswer
    | ok result =>
      rw [hcall] at hanswer
      rw [after_of_call_eq_ok hcall] at hextends
      refine ⟨result.2, by rw [← Except.ok.inj hanswer], hextends, ?_⟩
      rw [← Call.parent_of_addition? ha]
      exact hextends.children_parent
  · omega
  · intro e
    rw [closeGroup_eq_error_iff, hnone]
  · intro h
    rw [Stacked.call?, size_stack_stacked, hnone.1 h]
    rfl
  · rw [finish_eq, hopens, Nat.add_sub_cancel_left]
    simp only [Nat.add_eq_left]

end Builder

end TokenHighlight
