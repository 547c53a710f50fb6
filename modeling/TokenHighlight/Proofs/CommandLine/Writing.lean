import TokenHighlight.CommandLine.Arguments

/-!
# Writing a request

There are many ways to ask for the same: options in any order, long or short, with their values in
the same argument or in the next one. One of them is to write every option out under its long name,
one argument for each, and the tree at the end. It is understood as it is meant; and whatever is
understood at all can be written in this way, since an empty name and a number with more than 64
bits are refused wherever they stand. The list of arguments is read from the left, so both are
shown one argument at a time.

## Main definitions

* `Options.arguments` — a request written out
* `Options.CanBeWritten` — names that are not empty, and a place with 64 bits
* `Arguments.State.Fits` — the same of what some arguments say, which each step keeps

## Main results

* `Options.parse?_arguments` — what is written out is understood
* `Arguments.canBeWritten_of_parse?` — what is understood can be written out
-/

namespace TokenHighlight

namespace Arguments

variable {s s' : State} {o : Valued} {value : String} {rest : List String}

/-! ### One argument -/

/-- The long name of an option. -/
def Valued.name : Valued → String
  | config => "config"
  | select => "select"
  | varnode => "varnode"
  | op => "op"

/-- An option with its value. -/
def Valued.argument (o : Valued) (value : String) : String :=
  "--" ++ o.name ++ "=" ++ value

theorem toList_argument (o : Valued) (value : String) :
    (o.argument value).toList = '-' :: '-' :: (o.name.toList ++ '=' :: value.toList) := by
  simp [Valued.argument]

theorem longStep?_name (s : State) (o : Valued) (value : List Char) :
    longStep? s (o.name.toList ++ '=' :: value) =
      (s.setValue? o (String.ofList value)).map .next := by
  cases o <;> rfl

theorem step?_argument (s : State) (o : Valued) (value : String) :
    step? s (o.argument value) = (s.setValue? o value).map .next := by
  rw [step?, toList_argument]
  exact (longStep?_name s o value.toList).trans (by rw [String.ofList_toList])

theorem parseFrom?_of_step? {arg : String} (hne : arg ≠ "--")
    (h : step? s arg = some (.next s')) : parseFrom? s (arg :: rest) = parseFrom? s' rest := by
  rw [parseFrom?, h]
  exact hne

theorem parseFrom?_argument (h : s.setValue? o value = some s') :
    parseFrom? s (o.argument value :: rest) = parseFrom? s' rest := by
  refine parseFrom?_of_step? (fun heq => ?_) (by rw [step?_argument, h]; rfl)
  have hlist := congrArg String.toList heq
  rw [toList_argument] at hlist
  simp at hlist

theorem parseFrom?_tree (hs : s.tree = none) {tree : String} (htree : tree ≠ "") :
    parseFrom? s ["--", tree] =
      some (.highlight ⟨tree, s.config, s.select, s.varnodes, s.ops, s.fill⟩) := by
  rw [parseFrom?]
  simp [State.setTree?, hs, htree, State.finish?]

/-- A number in digits is read as this number. -/
theorem number?_toString {n : Nat} (hn : n < UInt64.size) : number? (toString n) = some n := by
  have hlist : (toString n).toList = Text.decimal n := by simp [Text.decimal]
  have hread := Text.decimalNumber?_decimal n
  rw [number?, hlist]
  cases hdecimal : Text.decimal n with
  | nil =>
    rw [hdecimal] at hread
    cases hread
  | cons d digits =>
    have hmem : d ∈ Nat.toDigits 10 n := by
      rw [← Text.decimal, hdecimal]
      exact List.mem_cons_self
    have hplus : d ≠ '+' := by
      rintro rfl
      exact absurd (Nat.isDigit_of_mem_toDigits (by decide) (by decide) hmem) (by decide)
    rw [hdecimal] at hread
    simp [hplus, hread, hn]

/-- Numbers that may be repeated are put behind those that were there. -/
theorem parseFrom?_numbers (add : State → List UInt64 → State) (hnil : ∀ s, add s [] = s)
    (hcons : ∀ s v vs, ∃ s', s.setValue? o (toString (v : UInt64).toNat) = some s' ∧
      add s (v :: vs) = add s' vs) (s : State) (vs : List UInt64) :
    parseFrom? s ((vs.map fun v => o.argument (toString v.toNat)) ++ rest) =
      parseFrom? (add s vs) rest := by
  induction vs generalizing s with
  | nil =>
    rw [hnil]
    rfl
  | cons v vs ih =>
    obtain ⟨s', hs', hadd⟩ := hcons s v vs
    rw [List.map_cons, List.cons_append, parseFrom?_argument hs', ih, hadd]

theorem parseFrom?_varnodes (s : State) (vs : List UInt64) :
    parseFrom? s ((vs.map fun v => Valued.varnode.argument (toString v.toNat)) ++ rest) =
      parseFrom? { s with varnodes := s.varnodes ++ vs } rest := by
  refine parseFrom?_numbers (fun s vs => { s with varnodes := s.varnodes ++ vs })
    (fun s => by rw [List.append_nil]) (fun s v vs => ?_) s vs
  refine ⟨{ s with varnodes := s.varnodes ++ [v] }, ?_, by simp⟩
  rw [State.setValue?, number?_toString v.toNat_lt]
  simp

theorem parseFrom?_ops (s : State) (ops : List UInt64) :
    parseFrom? s ((ops.map fun v => Valued.op.argument (toString v.toNat)) ++ rest) =
      parseFrom? { s with ops := s.ops ++ ops } rest := by
  refine parseFrom?_numbers (fun s ops => { s with ops := s.ops ++ ops })
    (fun s => by rw [List.append_nil]) (fun s v ops => ?_) s ops
  refine ⟨{ s with ops := s.ops ++ [v] }, ?_, by simp⟩
  rw [State.setValue?, number?_toString v.toNat_lt]
  simp

/-! What can be said only once must not have been said before. -/

theorem parseFrom?_config (hs : s.config = none) {config : Option String}
    (hconfig : config ≠ some "") :
    parseFrom? s (config.toList.map Valued.config.argument ++ rest) =
      parseFrom? { s with config := config } rest := by
  cases config with
  | none =>
    have hsame : { s with config := none } = s := by rw [← hs]
    rw [hsame]
    rfl
  | some path =>
    have hpath : path ≠ "" := fun heq => hconfig (congrArg some heq)
    exact parseFrom?_argument (by simp [State.setValue?, hs, hpath])

theorem parseFrom?_select (hs : s.select = none) {select : Option Nat}
    (hselect : ∀ index, select = some index → index < UInt64.size) :
    parseFrom? s ((select.toList.map fun index => Valued.select.argument (toString index)) ++
      rest) = parseFrom? { s with select := select } rest := by
  cases select with
  | none =>
    have hsame : { s with select := none } = s := by rw [← hs]
    rw [hsame]
    rfl
  | some index =>
    refine parseFrom?_argument ?_
    rw [State.setValue?, number?_toString (hselect index rfl), hs]
    rfl

theorem parseFrom?_fill (hs : s.fill = false) (fill : Bool) :
    parseFrom? s ((if fill then ["--fill"] else []) ++ rest) =
      parseFrom? { s with fill := fill } rest := by
  cases fill with
  | false =>
    have hsame : { s with fill := false } = s := by rw [← hs]
    rw [hsame]
    rfl
  | true =>
    have hstep : step? s "--fill" = s.setFill?.map .next := rfl
    refine parseFrom?_of_step? (by decide) ?_
    rw [hstep, State.setFill?, hs]
    rfl

end Arguments

/-! ### A request -/

namespace Options

/-- A request written out, with one argument for each option and the tree at the end. -/
def arguments (o : Options) : List String :=
  o.config.toList.map Arguments.Valued.config.argument ++
    ((o.select.toList.map fun index => Arguments.Valued.select.argument (toString index)) ++
    ((o.varnodes.map fun v => Arguments.Valued.varnode.argument (toString v.toNat)) ++
    ((o.ops.map fun op => Arguments.Valued.op.argument (toString op.toNat)) ++
    ((if o.fill then ["--fill"] else []) ++ ["--", o.tree]))))

/-- The names in a request are not empty, and the place has 64 bits. -/
structure CanBeWritten (o : Options) : Prop where
  tree : o.tree ≠ ""
  config : o.config ≠ some ""
  select : ∀ index, o.select = some index → index < UInt64.size

open Arguments in
/-- **What is written out is understood.** -/
theorem parse?_arguments {o : Options} (h : o.CanBeWritten) :
    parse? o.arguments = some (.highlight o) := by
  rw [parse?, arguments, parseFrom?_config rfl h.config, parseFrom?_select rfl h.select,
    parseFrom?_varnodes, parseFrom?_ops, parseFrom?_fill rfl, parseFrom?_tree rfl h.tree]
  rfl

end Options

/-! ### What is understood -/

namespace Arguments

variable {s s' : State} {st : Step} {o : Valued} {value arg : String} {cs : List Char}
  {args : List String} {opts : Options}

/-- What the arguments so far say can be written out. -/
structure State.Fits (s : State) : Prop where
  tree : s.tree ≠ some ""
  config : s.config ≠ some ""
  select : ∀ index, s.select = some index → index < UInt64.size

/-- What they say after a step can be written out. -/
def Step.Fits : Step → Prop
  | next s => s.Fits
  | wantsValue s _ => s.Fits
  | version => True

theorem number?_lt {n : Nat} (h : number? value = some n) : n < UInt64.size := by
  rw [number?] at h
  split at h
  · split at h
    · next hlt =>
      cases h
      exact hlt
    · cases h
  · cases h

theorem State.Fits.setValue? (hs : s.Fits) (h : s.setValue? o value = some s') : s'.Fits := by
  cases o with
  | config =>
    simp only [State.setValue?, Option.ite_none_left_eq_some, not_or, Option.some_inj] at h
    obtain ⟨⟨hvalue, _⟩, rfl⟩ := h
    exact ⟨hs.tree, fun heq => hvalue (Option.some_inj.1 heq), hs.select⟩
  | select =>
    simp only [State.setValue?, Option.bind_eq_bind, Option.bind_eq_some_iff,
      Option.ite_none_left_eq_some, Option.some_inj] at h
    obtain ⟨index, hindex, _, rfl⟩ := h
    exact ⟨hs.tree, hs.config, fun _ heq => Option.some_inj.1 heq ▸ number?_lt hindex⟩
  | varnode | op =>
    simp only [State.setValue?, Option.bind_eq_bind, Option.bind_eq_some_iff, Option.pure_def,
      Option.some_inj] at h
    obtain ⟨_, _, rfl⟩ := h
    exact ⟨hs.tree, hs.config, hs.select⟩

theorem State.Fits.setTree? (hs : s.Fits) (h : s.setTree? value = some s') : s'.Fits := by
  simp only [State.setTree?, Option.ite_none_left_eq_some, not_or, Option.some_inj] at h
  obtain ⟨⟨hvalue, _⟩, rfl⟩ := h
  exact ⟨fun heq => hvalue (Option.some_inj.1 heq), hs.config, hs.select⟩

theorem State.Fits.turnOn? {switch : Switch} (hs : s.Fits) (h : s.turnOn? switch = some st) :
    st.Fits := by
  cases switch with
  | fill =>
    simp only [State.turnOn?, State.setFill?, Option.map_eq_some_iff,
      Option.ite_none_left_eq_some, Option.some_inj] at h
    obtain ⟨_, ⟨_, rfl⟩, rfl⟩ := h
    exact ⟨hs.tree, hs.config, hs.select⟩
  | verbose =>
    cases h
    exact hs
  | version =>
    cases h
    trivial

theorem State.Fits.map_setValue? (hs : s.Fits) (h : (s.setValue? o value).map .next = some st) :
    st.Fits := by
  obtain ⟨_, hset, rfl⟩ := Option.map_eq_some_iff.1 h
  exact hs.setValue? hset

theorem State.Fits.longStep? (hs : s.Fits) (h : longStep? s cs = some st) : st.Fits := by
  rw [Arguments.longStep?] at h
  split at h
  · cases h
    exact hs
  · exact hs.map_setValue? h
  · exact hs.turnOn? h
  · cases h

theorem State.Fits.shortStep? (hs : s.Fits) (h : shortStep? s cs = some st) : st.Fits := by
  -- Only switches lead on to the letters behind them.
  fun_induction Arguments.shortStep? s cs with
  | case1 | case3 =>
    cases h
    exact hs
  | case2 => cases h
  | case4 | case5 => exact hs.map_setValue? h
  | case6 _ _ _ _ _ _ hturn ih => exact ih (hs.turnOn? hturn) h
  | case7 => exact hs.turnOn? h

theorem State.Fits.step? (hs : s.Fits) (h : step? s arg = some st) : st.Fits := by
  rw [Arguments.step?] at h
  split at h
  · exact hs.longStep? h
  · exact hs.shortStep? h
  · obtain ⟨_, hset, rfl⟩ := Option.map_eq_some_iff.1 h
    exact hs.setTree? hset

theorem State.Fits.foldlM_setTree? (hs : s.Fits) (h : args.foldlM State.setTree? s = some s') :
    s'.Fits := by
  induction args generalizing s with
  | nil =>
    cases h
    exact hs
  | cons arg args ih =>
    rw [List.foldlM_cons] at h
    obtain ⟨_, hset, h⟩ := Option.bind_eq_some_iff.1 h
    exact ih (hs.setTree? hset) h

theorem State.Fits.finish? (hs : s.Fits) (h : s.finish? = some (.highlight opts)) :
    opts.CanBeWritten := by
  obtain ⟨tree, htree, h⟩ := Option.bind_eq_some_iff.1 h
  cases h
  exact ⟨fun heq => hs.tree (htree.trans (congrArg some heq)), hs.config, hs.select⟩

theorem State.Fits.parseFrom? (hs : s.Fits) (h : parseFrom? s args = some (.highlight opts)) :
    opts.CanBeWritten := by
  fun_induction Arguments.parseFrom? s args with
  | case1 => exact hs.finish? h
  | case2 =>
    obtain ⟨_, hfold, h⟩ := Option.bind_eq_some_iff.1 h
    exact (hs.foldlM_setTree? hfold).finish? h
  | case5 _ _ _ _ _ hstep ih => exact ih (hs.step? hstep) h
  | case7 _ _ _ _ _ hstep _ _ _ _ hset ih => exact ih ((hs.step? hstep).setValue? hset) h
  -- Everything else is refused, or asks for the version.
  | case3 | case4 | case6 | case8 | case9 => cases h

theorem fits_empty : State.Fits {} where
  tree := by decide
  config := by decide
  select _ h := by cases h

/-- **What is understood can be written out.** -/
theorem canBeWritten_of_parse? (h : parse? args = some (.highlight opts)) : opts.CanBeWritten :=
  fits_empty.parseFrom? h

end Arguments

end TokenHighlight
