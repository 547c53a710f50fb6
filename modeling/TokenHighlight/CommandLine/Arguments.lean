import TokenHighlight.Text.Decimal

/-!
# Arguments

The command line names one file with a token tree and says what to highlight in it. Long options are
written in full, with their value behind an equals sign or as the next argument; short ones may be
joined, the last of them with its value. An argument that begins with a hyphen is not taken for the
value of the option before it, unless it is the hyphen alone. Behind `--` every argument is a file.

Arguments are looked at from left to right, and the first thing that is wrong counts. Asking for the
version ends the search.

## Main definitions

* `Options`, `Request` — what was asked for
* `Arguments.parse?`
-/

namespace TokenHighlight

/-- What to highlight, and in which tree. -/
structure Options where
  tree : String
  config : Option String := none
  select : Option Nat := none
  varnodes : List UInt64 := []
  ops : List UInt64 := []
  fill : Bool := false
deriving DecidableEq, Repr

/-- What a command line asks for. -/
inductive Request
  | version
  | highlight (options : Options)
deriving DecidableEq, Repr

namespace Arguments

/-- What the arguments so far say. -/
structure State where
  tree : Option String := none
  config : Option String := none
  select : Option Nat := none
  varnodes : List UInt64 := []
  ops : List UInt64 := []
  fill : Bool := false
deriving DecidableEq, Repr

/-- The options that take a value. -/
inductive Valued
  | config
  | select
  | varnode
  | op
deriving DecidableEq, Repr

/-- The options that take none. Those on how much to tell change nothing here. -/
inductive Switch
  | fill
  | verbose
  | version
deriving DecidableEq, Repr

/-- Reads a number of 64 bits in decimal digits, with leading zeros and a plus sign allowed. -/
def number? (s : String) : Option Nat :=
  let digits :=
    match s.toList with
    | '+' :: rest => rest
    | cs => cs
  match Text.decimalNumber? digits with
  | some n => if n < UInt64.size then some n else none
  | none => none

/-- Takes the value of an option. Files need a name, numbers have to be numbers, and what can be
said once only must not have been said before. -/
def State.setValue? (s : State) (o : Valued) (value : String) : Option State :=
  match o with
  | .config =>
    if value = "" ∨ s.config.isSome then none else some { s with config := some value }
  | .select => do
    let index ← number? value
    if s.select.isSome then none else some { s with select := some index }
  | .varnode => do return { s with varnodes := s.varnodes ++ [.ofNat (← number? value)] }
  | .op => do return { s with ops := s.ops ++ [.ofNat (← number? value)] }

/-- Takes an argument that is no option. -/
def State.setTree? (s : State) (value : String) : Option State :=
  if value = "" ∨ s.tree.isSome then none else some { s with tree := some value }

/-- Takes a switch that is not the one for the version. -/
def State.setFill? (s : State) : Option State :=
  if s.fill then none else some { s with fill := true }

/-- Where an argument leads. -/
inductive Step
  | next (s : State)
  /-- The next argument is the value of this option. -/
  | wantsValue (s : State) (o : Valued)
  | version

/-- Takes a switch. -/
def State.turnOn? (s : State) : Switch → Option Step
  | .fill => s.setFill?.map .next
  | .verbose => some (.next s)
  | .version => some .version

/-- Options by their long names. -/
def long? (name : String) : Option (Valued ⊕ Switch) :=
  [("config", .inl .config), ("select", .inl .select), ("varnode", .inl .varnode),
    ("op", .inl .op), ("fill", .inr .fill), ("verbose", .inr .verbose),
    ("version", .inr .version)].lookup name

/-- Options by their letters. -/
def short? (letter : Char) : Option (Valued ⊕ Switch) :=
  [('c', .inl .config), ('s', .inl .select), ('f', .inr .fill), ('v', .inr .verbose),
    ('V', .inr .version)].lookup letter

/-- A long option, without its two hyphens. -/
def longStep? (s : State) (cs : List Char) : Option Step :=
  let name := String.ofList (cs.takeWhile (· ≠ '='))
  match long? name, cs.dropWhile (· ≠ '=') with
  | some (.inl o), [] => some (.wantsValue s o)
  | some (.inl o), _ :: value => (s.setValue? o (String.ofList value)).map .next
  | some (.inr switch), [] => s.turnOn? switch
  | _, _ => none

/-- Joined short options, without the hyphen. What stands behind one that takes a value is the
value, with an equals sign before it or not. -/
def shortStep? : State → List Char → Option Step
  | s, [] => some (.next s)
  | s, letter :: rest =>
    match short? letter with
    | none => none
    | some (.inl o) =>
      match rest with
      | [] => some (.wantsValue s o)
      | '=' :: value => (s.setValue? o (String.ofList value)).map .next
      | value => (s.setValue? o (String.ofList value)).map .next
    | some (.inr switch) =>
      match s.turnOn? switch with
      | some (.next s) => shortStep? s rest
      | other => other

/-- An argument that is not the value of an option. -/
def step? (s : State) (arg : String) : Option Step :=
  match arg.toList with
  | '-' :: '-' :: cs => longStep? s cs
  | '-' :: c :: cs => shortStep? s (c :: cs)
  | _ => (s.setTree? arg).map .next

/-- Whether an argument can be the value of the option before it. -/
def isValue (arg : String) : Bool :=
  match arg.toList with
  | '-' :: _ :: _ => false
  | _ => true

/-- The request, if the tree was named. -/
def State.finish? (s : State) : Option Request := do
  return .highlight ⟨← s.tree, s.config, s.select, s.varnodes, s.ops, s.fill⟩

/-- What the arguments from here on ask for. -/
def parseFrom? : State → List String → Option Request
  | s, [] => s.finish?
  | s, "--" :: rest => do (← rest.foldlM State.setTree? s).finish?
  | s, arg :: rest =>
    match step? s arg with
    | none => none
    | some .version => some .version
    | some (.next s) => parseFrom? s rest
    | some (.wantsValue s o) =>
      match rest with
      | [] => none
      | value :: rest =>
        if isValue value then
          match s.setValue? o value with
          | some s => parseFrom? s rest
          | none => none
        else none

/-- What a command line asks for, or nothing if it makes no sense. -/
def parse? (args : List String) : Option Request :=
  parseFrom? {} args

end Arguments

end TokenHighlight
