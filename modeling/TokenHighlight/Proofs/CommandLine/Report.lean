import TokenHighlight.Proofs.CommandLine.Display
import TokenHighlight.Proofs.CommandLine.Writing
import TokenHighlight.Proofs.Tree.Described
import TokenHighlight.Proofs.Tree.SpecText

/-!
# What a run reports

A run either has everything it needs, and prints what its options show, or lacks something, and
prints nothing. Which of the two it is depends on what the files hold: the configuration if one was
named, the description of the tree, and how many tokens that has. The user's own configuration can
be missing or broken, and then counts as one in which nothing is set.

Two command lines that ask for the same highlights report the same. It does not matter in which
order they name variables and operations, nor how often they name one. So one can think of a request
as written out, with one argument for each option.

## Main definitions

* `Options.Accepts`, `Options.Rejects` — what a run needs, and what it can lack
* `Options.AsksTheSame` — two requests for the same highlights

## Main results

* `Options.rejects_or_exists_accepts` — these are all runs
* `Options.Accepts.run_eq`, `Options.Rejects.exists_run_eq_error` — what they come to
* `Options.AsksTheSame.run_eq` — only membership counts among variables and operations
* `report_shows_highlights` — the whole contract of the program
-/

namespace TokenHighlight

open Session

namespace Options

variable {o o' : Options} {configText treeText : Option String} {config : Config} {t : Tree}

/-! ### Runs that succeed -/

/-- A run has what it needs: a configuration, which for the user's own is the default one if there
is none that can be read; a tree; and the token that is to be selected. -/
structure Accepts (o : Options) (configText treeText : Option String) (config : Config) (t : Tree) :
    Prop where
  config : Config.ofText configText = .ok config ∨
    o.config = none ∧ (∀ c, Config.ofText configText ≠ .ok c) ∧ config = Config.default
  tree : ∃ text children, treeText = some text ∧ Spec.read? text = some (.group children) ∧
    Tree.ofSpec (.group children) = .ok t
  select : ∀ index, o.select = some index → index < t.tokens.length

theorem Accepts.loadConfig_eq (h : o.Accepts configText treeText config t) :
    o.loadConfig configText = .ok config := by
  rw [loadConfig]
  rcases h.config with hc | ⟨ho, hc, rfl⟩
  · split
    · rw [Config.ofUserText, hc]
    · rw [hc]
  · rw [ho]
    dsimp only
    rw [Config.ofUserText]
    split
    · next c hok => exact absurd hok (hc c)
    · rfl

theorem Accepts.loadTree_eq (h : o.Accepts configText treeText config t) :
    o.loadTree treeText = .ok t := by
  obtain ⟨text, children, rfl, hread, hspec⟩ := h.tree
  simp only [loadTree, hread, hspec]

/-- A tree that is loaded is like any other, and plain. -/
theorem Accepts.reachable_and_isPlain (h : o.Accepts configText treeText config t) :
    t.Reachable ∧ t.IsPlain := by
  obtain ⟨_, children, _, _, hspec⟩ := h.tree
  obtain ⟨t', ht', hreachable, hplain⟩ := Tree.exists_ofSpec children
  rw [hspec] at ht'
  cases ht'
  exact ⟨hreachable, hplain⟩

/-- **A run that has what it needs prints what its options show.** -/
theorem Accepts.run_eq (h : o.Accepts configText treeText config t) :
    ∃ shown, o.Displays config t shown ∧
      o.run configText treeText = .ok (shown.listing ++ shown.seedLine) := by
  obtain ⟨htree, hplain⟩ := h.reachable_and_isPlain
  obtain ⟨g, hg, hdisplays, hwf, hsound⟩ := session_eq_ok htree hplain h.select config
  refine ⟨g.tree, hdisplays, ?_⟩
  rw [run, h.loadConfig_eq, h.loadTree_eq]
  show (do return (← o.session config t).print) = _
  rw [hg, ← Highlights.searchLine_eq_seedLine hwf hsound, ← print_displayed]
  rfl

/-! ### Runs that fail -/

/-- A run lacks something: the configuration that was named, a text for the tree, a description in
it, a group at its root, or the token that is to be selected. -/
inductive Rejects (o : Options) (configText treeText : Option String) : Prop
  | config (path : String) (ho : o.config = some path) (h : ∀ c, Config.ofText configText ≠ .ok c)
  | unreadable (h : treeText = none)
  | malformed (text : String) (h : treeText = some text) (hread : Spec.read? text = none)
  | rootToken (text : String) (data : TokenData) (h : treeText = some text)
      (hread : Spec.read? text = some (.token data))
  | outOfRange (text : String) (children : List Spec) (t : Tree) (index : Nat)
      (h : treeText = some text) (hread : Spec.read? text = some (.group children))
      (hspec : Tree.ofSpec (.group children) = .ok t) (ho : o.select = some index)
      (hle : t.tokens.length ≤ index)

theorem exists_run_eq_error_of_loadTree {e : Failure} (h : o.loadTree treeText = .error e)
    (configText : Option String) : ∃ e, o.run configText treeText = .error e := by
  rw [run, h]
  cases o.loadConfig configText with
  | error e' => exact ⟨e', rfl⟩
  | ok config => exact ⟨e, rfl⟩

/-- **A run that lacks something fails.** -/
theorem Rejects.exists_run_eq_error (h : o.Rejects configText treeText) :
    ∃ e, o.run configText treeText = .error e := by
  cases h with
  | config path ho hc =>
    have hload : o.loadConfig configText = .error (.config path) := by
      rw [loadConfig, ho]
      cases htext : Config.ofText configText with
      | ok c => exact absurd htext (hc c)
      | error e => rfl
    exact ⟨.config path, by rw [run, hload]; rfl⟩
  | unreadable ht =>
    refine exists_run_eq_error_of_loadTree (e := .reading o.tree) ?_ configText
    simp only [loadTree, ht]
  | malformed text ht hread =>
    refine exists_run_eq_error_of_loadTree (e := .parsing o.tree) ?_ configText
    simp only [loadTree, ht, hread]
  | rootToken text data ht hread =>
    refine exists_run_eq_error_of_loadTree (e := .tree .rootNotGroup) ?_ configText
    simp only [loadTree, ht, hread, Tree.ofSpec]
  | outOfRange text children t index ht hread hspec ho hle =>
    have hload : o.loadTree treeText = .ok t := by
      simp only [loadTree, ht, hread, hspec]
    rw [run, hload]
    cases o.loadConfig configText with
    | error e => exact ⟨e, rfl⟩
    | ok config =>
      show ∃ e, (do return (← o.session config t).print) = Except.error e
      rw [session_eq_error ho hle]
      exact ⟨_, rfl⟩

/-- A run has what it needs, or lacks something. -/
theorem rejects_or_exists_accepts (o : Options) (configText treeText : Option String) :
    o.Rejects configText treeText ∨ ∃ config t, o.Accepts configText treeText config t := by
  have hconfig : (∃ path, o.config = some path ∧ ∀ c, Config.ofText configText ≠ .ok c) ∨
      ∃ c, Config.ofText configText = .ok c ∨
        o.config = none ∧ (∀ c, Config.ofText configText ≠ .ok c) ∧ c = Config.default := by
    cases hc : Config.ofText configText with
    | ok c => exact Or.inr ⟨c, Or.inl rfl⟩
    | error e =>
      cases ho : o.config with
      | none => exact Or.inr ⟨_, Or.inr ⟨rfl, nofun, rfl⟩⟩
      | some path => exact Or.inl ⟨path, rfl, nofun⟩
  rcases hconfig with ⟨path, ho, hc⟩ | ⟨config, hc⟩
  · exact Or.inl (.config path ho hc)
  cases ht : treeText with
  | none => exact Or.inl (.unreadable rfl)
  | some text =>
    cases hread : Spec.read? text with
    | none => exact Or.inl (.malformed text rfl hread)
    | some s =>
      cases s with
      | token data => exact Or.inl (.rootToken text data rfl hread)
      | group children =>
        obtain ⟨t, hspec, _⟩ := Tree.exists_ofSpec children
        by_cases hselect : ∀ index, o.select = some index → index < t.tokens.length
        · exact Or.inr ⟨config, t, hc, ⟨text, children, rfl, hread, hspec⟩, hselect⟩
        · push Not at hselect
          obtain ⟨index, ho, hle⟩ := hselect
          exact Or.inl (.outOfRange text children t index rfl hread hspec ho hle)

/-! ### Requests for the same highlights -/

/-- Two requests differ at most in the order of their variables and operations and in how often they
name one. -/
structure AsksTheSame (o o' : Options) : Prop where
  tree : o.tree = o'.tree
  config : o.config = o'.config
  select : o.select = o'.select
  varnodes : ∀ v, v ∈ o.varnodes ↔ v ∈ o'.varnodes
  ops : ∀ op, op ∈ o.ops ↔ op ∈ o'.ops
  fill : o.fill = o'.fill

theorem isEmpty_congr {xs ys : List UInt64} (h : ∀ x, x ∈ xs ↔ x ∈ ys) :
    xs.isEmpty = ys.isEmpty := by
  rw [Bool.eq_iff_iff, List.isEmpty_iff, List.isEmpty_iff, List.eq_nil_iff_forall_not_mem,
    List.eq_nil_iff_forall_not_mem]
  exact forall_congr' fun x => not_congr (h x)

/-- Two operations that come to the same in the highlights and are both heard of come to the same in
a session. -/
theorem operate_congr {s : Session} {op op' : Operation}
    (hrun : op.run s.view.highlights = op'.run s.view.highlights)
    (hheard : (View.Event.operate op).isHeard s.view = (View.Event.operate op').isHeard s.view) :
    (s.operate op).session = (s.operate op').session := by
  simp only [operate, View.perform_view, View.called_perform, hrun, hheard]

theorem AsksTheSame.applyVarnodes_eq (h : o.AsksTheSame o') (s : Session) :
    o.applyVarnodes s = o'.applyVarnodes s := by
  rw [applyVarnodes, applyVarnodes, isEmpty_congr h.varnodes]
  refine if_congr Iff.rfl rfl (operate_congr ?_ rfl)
  simp only [Operation.run, Highlights.addVarnodes_congr h.varnodes]

theorem AsksTheSame.applyOps_eq (h : o.AsksTheSame o') (s : Session) :
    o.applyOps s = o'.applyOps s := by
  rw [applyOps, applyOps, isEmpty_congr h.ops]
  refine if_congr Iff.rfl rfl (operate_congr ?_ rfl)
  simp only [Operation.run, Highlights.addOps_congr h.ops]

/-- **Requests for the same highlights come to the same.** -/
theorem AsksTheSame.run_eq (h : o.AsksTheSame o') (configText treeText : Option String) :
    o.run configText treeText = o'.run configText treeText := by
  have hconfig : o.loadConfig = o'.loadConfig := by
    funext text
    rw [loadConfig, loadConfig, h.config]
  have htree : o.loadTree = o'.loadTree := by
    funext text
    rw [loadTree.eq_def, loadTree.eq_def, h.tree]
  have hsession : o.session = o'.session := by
    funext config t
    have hselect : o.applySelect = o'.applySelect := by
      funext s
      rw [applySelect, applySelect, h.select]
    have hfill : o.applyFill config = o'.applyFill config := by
      funext s
      rw [applyFill, applyFill, h.fill]
    simp only [session, hselect, hfill, h.applyVarnodes_eq, h.applyOps_eq]
  rw [run, run, hconfig, htree, hsession]

end Options

/-! ### The report -/

theorem report_of_run_eq_ok {o : Options} {configText treeText : Option String} {output : String}
    (h : o.run configText treeText = .ok output) :
    report (some (.highlight o)) configText treeText = ⟨0, output, none⟩ := by
  simp only [report, h]

/-- **A run prints what its options show, or nothing.** A run that has what it needs prints the one
tree that its options show: the annotated text, the legend, and the line for the search if a single
token is colored. A run that lacks something prints nothing. There are no other runs, and which
command line a request comes from makes no difference, as long as the same highlights are asked for.
The requests that there are can be written out, and what is written out is understood. -/
theorem report_shows_highlights {args : List String} {o : Options}
    (hargs : Arguments.parse? args = some (.highlight o)) (configText treeText : Option String) :
    let r := report (Arguments.parse? args) configText treeText
    (∀ config t, o.Accepts configText treeText config t →
      ∃ shown, (∀ shown', o.Displays config t shown' ↔ shown' = shown) ∧
        r = ⟨0, shown.annotate ++ "\n" ++ String.join (shown.legend.map (· ++ "\n")) ++
          shown.seedLine, none⟩) ∧
    (o.Rejects configText treeText → r.exitCode = 1 ∧ r.output = "") ∧
    (o.Rejects configText treeText ∨ ∃ config t, o.Accepts configText treeText config t) ∧
    (∀ {args' : List String} {o' : Options}, Arguments.parse? args' = some (.highlight o') →
      o.AsksTheSame o' → report (Arguments.parse? args') configText treeText = r) ∧
    o.CanBeWritten ∧
    ∀ o' : Options, Arguments.parse? o'.arguments = some (.highlight o') ↔ o'.CanBeWritten := by
  intro r
  refine ⟨fun config t haccepts => ?_, fun hrejects => ?_,
    o.rejects_or_exists_accepts configText treeText, fun hargs' hsame => ?_,
    Arguments.canBeWritten_of_parse? hargs,
    fun o' => ⟨Arguments.canBeWritten_of_parse?, Options.parse?_arguments⟩⟩
  · obtain ⟨shown, hdisplays, hrun⟩ := haccepts.run_eq
    refine ⟨shown, fun shown' => ⟨fun h => h.unique hdisplays, fun h => h ▸ hdisplays⟩, ?_⟩
    show report (Arguments.parse? args) configText treeText = _
    rw [hargs, report_of_run_eq_ok hrun]
    rfl
  · obtain ⟨e, he⟩ := hrejects.exists_run_eq_error
    show (report (Arguments.parse? args) configText treeText).exitCode = 1 ∧
      (report (Arguments.parse? args) configText treeText).output = ""
    rw [hargs]
    simp only [report, he, and_self]
  · show _ = report (Arguments.parse? args) configText treeText
    rw [hargs', hargs]
    simp only [report, hsame.run_eq]

/-! ### A call -/

/-- A call with one argument, and a block behind it. -/
def call : List Spec :=
  [.token { text := "(", bracket := some (.opening 0) }, .token { text := "x", varnode := some 2 },
    .token { text := ")", bracket := some (.closing 0) },
    .group [.token { text := "\x7b" }, .token { text := "y", op := some 5 }, .token { text := " " },
      .token { text := "z", varnode := some 2, address := some 16 }, .token { text := "\x7d" }]]

/-- The tree of the call, each token at its place. -/
def callTree : Tree :=
  ⟨#[⟨none, .group #[1, 2, 3, 4]⟩,
    ⟨some 0, .token { text := "(", bracket := some (.opening 0) }⟩,
    ⟨some 0, .token { text := "x", varnode := some 2 }⟩,
    ⟨some 0, .token { text := ")", bracket := some (.closing 0) }⟩,
    ⟨some 0, .group #[5, 6, 7, 8, 9]⟩,
    ⟨some 4, .token { text := "\x7b" }⟩,
    ⟨some 4, .token { text := "y", op := some 5 }⟩,
    ⟨some 4, .token { text := " " }⟩,
    ⟨some 4, .token { text := "z", varnode := some 2, address := some 16 }⟩,
    ⟨some 4, .token { text := "\x7d" }⟩]⟩

theorem read?_write_call : Spec.read? (Spec.group call).write = some (.group call) := by
  rw [Spec.read?, Spec.write, Json.read?_compact, Option.bind_some, Spec.ofJson?,
    Spec.depth_toJson, Spec.all_toJson]
  exact Spec.ofJsonWithin?_toJson false (.group call) (by decide)

theorem ofSpec_call : Tree.ofSpec (.group call) = .ok callTree := rfl

/-- A run on the call needs a configuration, and there are eight tokens to select from. -/
theorem accepts_call {o : Options} {configText : Option String} {config : Config}
    (hconfig : Config.ofText configText = .ok config ∨
      o.config = none ∧ (∀ c, Config.ofText configText ≠ .ok c) ∧ config = Config.default)
    (hselect : ∀ index ∈ o.select, index < 8) :
    o.Accepts configText (some (Spec.group call).write) config callTree :=
  ⟨hconfig, ⟨_, call, rfl, read?_write_call, ofSpec_call⟩, hselect⟩

theorem wellFormed_callTree : callTree.WellFormed := by
  obtain ⟨t, ht, hreachable, _⟩ := Tree.exists_ofSpec call
  rw [ofSpec_call] at ht
  cases ht
  exact hreachable.wellFormed

/-- What is shown of the call. First a round bracket is selected, with the uses of a variable and of
an operation, where the highlight color and filling are configured; then a brace, with filling asked
for, where the user's configuration is broken. The uses of an operation alone, however often it is
named, leave one token to search for. There is no ninth token to select. -/
theorem report_shows_highlights_sample :
    let text := some (Spec.group call).write
    report (Arguments.parse?
        ["t.json", "--config=c.toml", "--select", "0", "--varnode=2", "--op", "5"])
        (some "fill_gaps = true\n\n[palette]\nhighlight = \"#00c80060\"\n") text =
      ⟨0, "[(][x][)]\x7b[y][ ][z]\x7d\n" ++
        "   0  (            #ffff0080\n   1  x            #00c80060\n" ++
        "   2  )            #ffff0080\n   4  y            #00c80060\n" ++
        "   5               #00c80060\n   6  z            #00c80060\n", none⟩ ∧
    report (Arguments.parse? ["--select=3", "-f", "t.json", "--varnode=2"])
        (some "fill_gaps = 1") text =
      ⟨0, "([x])[\x7b][y][ ][z][\x7d]*\n" ++
        "   1  x            #ffff0080\n   3  \x7b            #ffff0080\n" ++
        "   4  y            #ffff0080\n   5               #ffff0080\n" ++
        "   6  z            #ffff0080\n   7  \x7d            #ffff0080\n", none⟩ ∧
    report (Arguments.parse? ["t.json", "--op=5", "--op=9"]) none text =
      ⟨0, "(x)\x7b[y] z\x7d\n   4  y            #ffff0080\nsearch seed: \"y\"\n", none⟩ ∧
    report (Arguments.parse? ["--op", "9", "t.json", "--op", "5", "--op", "9"]) none text =
      ⟨0, "(x)\x7b[y] z\x7d\n   4  y            #ffff0080\nsearch seed: \"y\"\n", none⟩ ∧
    (report (Arguments.parse? ["t.json", "--select", "8"]) none text).output = "" := by
  intro text
  -- What is printed is what is computed of the options.
  have hrun : ∀ {configText : Option String} {config : Config} (args : List String) (o : Options),
      Arguments.parse? args = some (.highlight o) → o.Accepts configText text config callTree →
      report (Arguments.parse? args) configText text =
        ⟨0, (o.shown config callTree).listing ++ (o.shown config callTree).seedLine, none⟩ := by
    intro configText config args o hargs haccepts
    obtain ⟨shown, hunique, hreport⟩ := (report_shows_highlights hargs configText _).1 _ _ haccepts
    obtain rfl := (hunique _).1 (Options.displays_shown wellFormed_callTree o config)
    exact hreport
  have hconfigured : Config.ofText
      (some "fill_gaps = true\n\n[palette]\nhighlight = \"#00c80060\"\n") =
        .ok { fillGaps := true, palette := ⟨none, some ⟨0, 200, 0, 96⟩, none, none⟩ } := by
    decide +kernel
  have hbroken : ∀ c, Config.ofText (some "fill_gaps = 1") ≠ .ok c := by
    have herror : Config.ofText (some "fill_gaps = 1") = .error (.parse none) := by decide +kernel
    intro c hc
    rw [herror] at hc
    cases hc
  have hmissing : ∀ c, Config.ofText none ≠ .ok c := nofun
  have hround := hrun ["t.json", "--config=c.toml", "--select", "0", "--varnode=2", "--op", "5"]
    ⟨"t.json", some "c.toml", some 0, [2], [5], false⟩ (by decide +kernel)
    (accepts_call (Or.inl hconfigured) (by decide))
  have hbrace := hrun ["--select=3", "-f", "t.json", "--varnode=2"]
    ⟨"t.json", none, some 3, [2], [], true⟩ (by decide +kernel)
    (accepts_call (Or.inr ⟨rfl, hbroken, rfl⟩) (by decide))
  let o : Options := ⟨"t.json", none, none, [], [5, 9], false⟩
  have hargs : Arguments.parse? ["t.json", "--op=5", "--op=9"] = some (.highlight o) := by
    decide +kernel
  have hargs' : Arguments.parse? ["--op", "9", "t.json", "--op", "5", "--op", "9"] =
      some (.highlight { o with ops := [9, 5, 9] }) := by
    decide +kernel
  have hasks : o.AsksTheSame { o with ops := [9, 5, 9] } := by
    refine ⟨rfl, rfl, rfl, fun _ => Iff.rfl, fun op => ?_, rfl⟩
    simp only [o, List.mem_cons, List.not_mem_nil, or_false]
    exact ⟨Or.inr, fun h => h.elim Or.inr id⟩
  have hop : report (Arguments.parse? ["t.json", "--op=5", "--op=9"]) none text =
      ⟨0, "(x)\x7b[y] z\x7d\n   4  y            #ffff0080\nsearch seed: \"y\"\n", none⟩ :=
    (hrun _ o hargs (accepts_call (Or.inr ⟨rfl, hmissing, rfl⟩) nofun)).trans (by decide +kernel)
  have hselect : Arguments.parse? ["t.json", "--select", "8"] =
      some (.highlight { tree := "t.json", select := some 8 }) := by
    decide +kernel
  have hrejects : Options.Rejects { tree := "t.json", select := some 8 } none text :=
    .outOfRange _ call callTree 8 rfl read?_write_call ofSpec_call rfl (by decide +kernel)
  obtain ⟨-, -, -, hagain, -⟩ := report_shows_highlights hargs none text
  obtain ⟨-, hnothing, -⟩ := report_shows_highlights hselect none text
  exact ⟨hround.trans (by decide +kernel), hbrace.trans (by decide +kernel), hop,
    (hagain hargs' hasks).trans hop, (hnothing hrejects).2⟩

end TokenHighlight
