import TokenHighlight.Toml.Value

/-!
# TOML documents

A document is read in two stages. The text is cut into lines: a header, or a key with its value,
which may take up more than one line of the text. Then the lines are gathered into sections, each a
header with the pairs below it, and the tables are put together from the sections.

A header that names a table which was only passed through before makes it a table of its own, and
moves it behind the tables that came in between.

## Main definitions

* `Toml.Line`, `Toml.lines?` — the first stage
* `Toml.Section`, `Toml.sections`, `Toml.assemble?` — the second
* `Toml.read?` — the entries of a document
-/

namespace TokenHighlight.Toml

/-! ### Lines -/

/-- A key and its value: the tables on the way, the last part of the key, and the value. -/
structure Pair where
  path : List String
  key : String
  item : Item

/-- A line of a document. -/
inductive Line
  /-- The header of a table, or of a further table of an array. -/
  | header (isArray : Bool) (path : List String) (key : String)
  | pair (p : Pair)

/-- Reads the rest of a header behind its opening brackets. -/
def header? (isArray : Bool) (cs : List Char) : Option (Line × List Char) := do
  let ((path, key), rest) ← dottedKey? cs
  match isArray, rest with
  | true, ']' :: ']' :: rest => return (.header true path key, ← lineEnd? rest)
  | false, ']' :: rest => return (.header false path key, ← lineEnd? rest)
  | _, _ => none

/-- Reads a key with its value, and the rest of the line. -/
def pair? (cs : List Char) : Option (Line × List Char) := do
  match ← dottedKey? cs with
  | ((path, key), '=' :: rest) =>
    let (item, rest) ← value? (skipBlanks rest)
    return (.pair ⟨path, key, item⟩, ← lineEnd? rest)
  | _ => none

/-- Reads a line that is not empty. -/
def line? : List Char → Option (Line × List Char)
  | '[' :: '[' :: rest => header? true rest
  | '[' :: rest => header? false rest
  | cs => pair? cs

/-- The lines of a text, empty ones and comments left out. Every step takes at least one character,
so that the length of the text is enough steps. -/
def linesWithin? : Nat → List Line → List Char → Option (List Line)
  | 0, done, cs => if cs.isEmpty then some done.reverse else none
  | steps + 1, done, cs =>
    match skipBlanks cs with
    | [] => some done.reverse
    | cs =>
      match lineEnd? cs with
      | some rest => linesWithin? steps done rest
      | none =>
        match line? cs with
        | some (l, rest) => linesWithin? steps (l :: done) rest
        | none => none

/-- The lines of a text. -/
def lines? (cs : List Char) : Option (List Line) :=
  linesWithin? cs.length [] cs

/-! ### Sections -/

/-- A header with the pairs below it. -/
structure Section where
  isArray : Bool
  path : List String
  key : String
  pairs : List Pair

/-- The pairs before the first header, and the sections. -/
def sections : List Line → List Pair × List Section
  | [] => ([], [])
  | .pair p :: rest =>
    let (pairs, found) := sections rest
    (p :: pairs, found)
  | .header isArray path key :: rest =>
    let (pairs, found) := sections rest
    ([], ⟨isArray, path, key, pairs⟩ :: found)

/-- Adds pairs to a table. -/
def fill? (pairs : List Pair) (entries : Entries) : Option Entries :=
  pairs.foldlM (fun entries p => insertAt? p.key p.item p.path entries) entries

/-- Adds the table of a section to the table that its header leads to. -/
def Section.addTo? (s : Section) (entries : Entries) : Option Entries :=
  match s.isArray, entries.lookup s.key with
  | false, none => do return entries ++ [(s.key, .table .header (← fill? s.pairs []))]
  | false, some (.table .path inner) => do
    return entries.erase s.key ++ [(s.key, .table .header (← fill? s.pairs inner))]
  | true, none => do return entries ++ [(s.key, .tables [← fill? s.pairs []])]
  | true, some (.tables elements) => do
    return entries.replace s.key (.tables (elements ++ [← fill? s.pairs []]))
  | _, _ => none

/-- Puts the tables of a document together. -/
def assemble? (lines : List Line) : Option Entries := do
  let (pairs, found) := sections lines
  found.foldlM (fun entries s => updateAt? s.addTo? s.path entries) (← fill? pairs [])

/-- The entries of a document. A byte order mark before it is passed over. -/
def read? (text : String) : Option Entries := do
  let cs :=
    match text.toList with
    | '\ufeff' :: rest => rest
    | cs => cs
  assemble? (← lines? cs)

end TokenHighlight.Toml
