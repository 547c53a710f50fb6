import TokenHighlight.CommandLine.Arguments
import TokenHighlight.Config.Files
import TokenHighlight.Render
import TokenHighlight.Session
import TokenHighlight.Tree.Spec.Json

/-!
# Running a request

A tree is loaded, highlighted as the options say, and displayed as annotated text with its legend.
The configuration is loaded before the tree. The display stands apart from the highlights: it hears
of changes by a flag, and shows the tree once, at the end, if the flag was raised. If a single token
ends up highlighted, its text is printed as the beginning of a search. A run that fails prints
nothing but the reason.

Files come in as what they hold: a text, or nothing if there is none to be read.

## Main definitions

* `Failure`, `Failure.message`
* `Options.loadConfig`, `Options.loadTree`, `Options.session` — the parts of a run
* `Session.print` — what the display shows, and the search
* `Options.run` — what is printed
* `Report`, `report` — that, or the failure, with the exit code
* `Report.errorLine` — the failure in one line
-/

namespace TokenHighlight

/-- Why a run fails. -/
inductive Failure
  /-- The configuration that was asked for cannot be loaded. -/
  | config (path : String)
  | reading (path : String)
  | parsing (path : String)
  | tree (error : TreeError)
  /-- So many tokens are there, and another one was selected. -/
  | outOfRange (index count : Nat)
deriving DecidableEq, Repr

/-- What to tell about a run that failed. -/
def Failure.message : Failure → String
  | config path => "loading config " ++ path
  | reading path => "reading token tree " ++ path
  | parsing path => "parsing token tree " ++ path
  | tree error => error.message
  | outOfRange index count => s!"token index {index} out of range (tree has {count} tokens)"

namespace Options

/-- The configuration: the one that was asked for, or the user's. -/
def loadConfig (o : Options) (configText : Option String) : Except Failure Config :=
  match o.config with
  | none => .ok (Config.ofUserText configText)
  | some path =>
    match Config.ofText configText with
    | .ok c => .ok c
    | .error _ => .error (.config path)

/-- The tree, from the text of a description. -/
def loadTree (o : Options) (treeText : Option String) : Except Failure Tree :=
  match treeText with
  | none => .error (.reading o.tree)
  | some text =>
    match Spec.read? text with
    | none => .error (.parsing o.tree)
    | some spec =>
      match Tree.ofSpec spec with
      | .ok t => .ok t
      | .error e => .error (.tree e)

/-- Selects the token that was asked for, by its place in document order. -/
def applySelect (o : Options) (s : Session) : Except Failure Session :=
  match o.select with
  | none => .ok s
  | some index =>
    match s.view.tree.tokens[index]? with
    | some id => .ok (s.operate (.select id .byText)).session
    | none => .error (.outOfRange index s.view.tree.tokens.length)

/-- Highlights the uses of the variables that were asked for, if there are any. -/
def applyVarnodes (o : Options) (s : Session) : Session :=
  if o.varnodes.isEmpty then s
  else
    let p := s.view.highlights.palette
    (s.operate (.addVarnodes Tree.root o.varnodes p.highlight none p.special)).session

/-- Highlights the uses of the operations that were asked for, if there are any. -/
def applyOps (o : Options) (s : Session) : Session :=
  if o.ops.isEmpty then s
  else (s.operate (.addOps Tree.root o.ops s.view.highlights.palette.highlight)).session

/-- Fills gaps, if that was asked for or is configured. -/
def applyFill (o : Options) (config : Config) (s : Session) : Session :=
  if o.fill || config.fillGaps then (s.operate .fill).session else s

/-- The session of a run. The display attaches its flag before anything is done, so that it is the
first one. -/
def session (o : Options) (config : Config) (tree : Tree) : Except Failure Session := do
  let s := ((Session.start tree).step .attachFlag).session
  let s := (s.operate (.overlayPalette config.palette)).session
  return o.applyFill config (o.applyOps (o.applyVarnodes (← o.applySelect s)))

end Options

/-- What a display shows of a tree: the annotated text and the legend, in lines of their own. -/
def Tree.listing (t : Tree) : String :=
  t.annotate ++ "\n" ++ String.join (t.legend.map (· ++ "\n"))

/-- The line for the search that the only highlighted token begins. -/
def Highlights.searchLine (h : Highlights) : String :=
  match h.searchText? with
  | some text => "search seed: " ++ Text.quoted text ++ "\n"
  | none => ""

/-- What is printed at the end of a session. The display shows the tree if its flag says that there
is something to be seen; it takes the flag down by asking. -/
def Session.print (s : Session) : String :=
  let taken := s.step (.takeFlag 0)
  let h := taken.session.view.highlights
  (if taken.answer = .truth true then h.tree.listing else "") ++ h.searchLine

/-- What a run prints. -/
def Options.run (o : Options) (configText treeText : Option String) : Except Failure String := do
  let config ← o.loadConfig configText
  let tree ← o.loadTree treeText
  return (← o.session config tree).print

/-- What a run comes to: what it prints, why it failed, and its exit code. -/
structure Report where
  exitCode : Nat
  output : String
  error : Option String
deriving DecidableEq, Repr

/-- The first line of a text that is printed with a line feed behind it. A carriage return before
the line feed belongs to the end of the line. -/
def firstLine (s : String) : String :=
  let line := s.toList.takeWhile (· ≠ '\n')
  String.ofList (if line.getLast? = some '\r' then line.dropLast else line)

/-- The first line of the reason why a run failed. A name in it may have further lines. -/
def Report.errorLine (r : Report) : Option String :=
  r.error.map firstLine

/-- The name and version of the program. -/
def versionLine : String := "ugo 0.1.0\n"

/-- Carries out what a command line asks for. -/
def report (request : Option Request) (configText treeText : Option String) : Report :=
  match request with
  | none => ⟨2, "", none⟩
  | some .version => ⟨0, versionLine, none⟩
  | some (.highlight o) =>
    match o.run configText treeText with
    | .ok output => ⟨0, output, none⟩
    | .error e => ⟨1, "", some ("Error: " ++ e.message)⟩

/-- The file that a run takes its configuration from, where the user's is at `userConfig`. -/
def Options.configFile (o : Options) (userConfig : String) : String :=
  o.config.getD userConfig

end TokenHighlight
