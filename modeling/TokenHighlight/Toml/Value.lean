import TokenHighlight.Toml.Scalar
import TokenHighlight.Toml.Text

/-!
# Keys and values in TOML

A key is a word of letters, digits, hyphens and underscores, or a string on one line; a dotted key
is several of them, with blanks around the dots. A value is a string, a plain value, an array, or a
table in braces. An array may spread over lines, hold comments and end in a comma; a table in
braces may do none of these.

Arrays and tables in braces may nest, and keys may be dotted, less than `Toml.maxDepth` deep.

## Main definitions

* `Toml.key?`, `Toml.keyPath?` — keys
* `Toml.value?` — a value at the beginning of a text
-/

namespace TokenHighlight.Toml

/-- The limit on nesting and on the parts of a key. -/
def maxDepth : Nat := 80

/-! ### Keys -/

/-- The characters of keys without quotes. -/
def isKeyChar (c : Char) : Bool :=
  c.isAlphanum || c = '-' || c = '_'

/-- Reads one part of a key. -/
def key? (cs : List Char) : Option (String × List Char) :=
  match cs with
  | [] => none
  | c :: _ =>
    if c = '"' ∨ c = '\'' then lineString? cs
    else if isKeyChar c then
      some (String.ofList (cs.takeWhile isKeyChar), cs.dropWhile isKeyChar)
    else none

/-- Reads a dotted key of at most so many parts, with the blanks around it: all parts but the last,
and the last. -/
def keyPath? : Nat → List Char → Option ((List String × String) × List Char)
  | 0, _ => none
  | parts + 1, cs => do
    let (key, rest) ← key? (skipBlanks cs)
    match skipBlanks rest with
    | '.' :: rest => do
      let ((path, last), rest) ← keyPath? parts rest
      return ((key :: path, last), rest)
    | rest => return (([], key), rest)

/-- Reads a dotted key. -/
def dottedKey? (cs : List Char) : Option ((List String × String) × List Char) :=
  keyPath? (maxDepth - 1) cs

/-! ### Plain values -/

/-- Whether a character ends a plain value. -/
def isDelimiter (c : Char) : Bool :=
  isBlank c || c = '\n' || c = '\r' || c = ',' || c = ']' || c = '\x7d' || c = '#'

/-- Reads a plain value. A time may follow a date behind a blank. -/
def plainValue? (cs : List Char) : Option (Item × List Char) :=
  let word := cs.takeWhile fun c => !isDelimiter c
  let rest := cs.dropWhile fun c => !isDelimiter c
  match afterDate? word, rest with
  | some [], ' ' :: behind =>
    let time := behind.takeWhile fun c => !isDelimiter c
    if isTimeWithOffset time then
      some (.datetime, behind.dropWhile fun c => !isDelimiter c)
    else some (.datetime, rest)
  | _, _ => (plain? word).map fun item => (item, rest)

/-! ### Values

Each function is given a number of steps and the depth of the arrays and tables around. Twice the
length of the text is enough steps, since of two steps in a row one takes a character. -/

mutual

/-- Reads a value. -/
def valueWithin? : Nat → Nat → List Char → Option (Item × List Char)
  | 0, _, _ => none
  | steps + 1, depth, cs =>
    match cs with
    | [] => none
    | c :: rest =>
      if c = '"' ∨ c = '\'' then (string? cs).map fun (s, rest) => (.string s, rest)
      else if c = '[' then
        if depth + 1 < maxDepth then
          (elements? steps (depth + 1) [] rest).map fun (es, rest) => (.array es, rest)
        else none
      else if c = '\x7b' then
        if depth + 1 < maxDepth then
          (members? steps (depth + 1) [] rest).map fun (es, rest) => (.table .braces es, rest)
        else none
      else plainValue? cs

/-- Reads the rest of an array, behind the bracket or a comma. What it holds so far is in
reverse. -/
def elements? : Nat → Nat → List Item → List Char → Option (List Item × List Char)
  | 0, _, _, _ => none
  | steps + 1, depth, done, cs =>
    match skipLayout false cs with
    | ']' :: rest => some (done.reverse, rest)
    | cs =>
      match valueWithin? steps depth cs with
      | none => none
      | some (item, rest) =>
        match skipLayout false rest with
        | ',' :: rest => elements? steps depth (item :: done) rest
        | ']' :: rest => some ((item :: done).reverse, rest)
        | _ => none

/-- Reads the rest of a table in braces, behind the brace or a comma. Only an empty table may be
closed here. -/
def members? : Nat → Nat → Entries → List Char → Option (Entries × List Char)
  | 0, _, _, _ => none
  | steps + 1, depth, done, cs =>
    match done, skipBlanks cs with
    | [], '\x7d' :: rest => some ([], rest)
    | _, _ =>
      match dottedKey? cs with
      | some ((path, key), '=' :: rest) =>
        match valueWithin? steps depth (skipBlanks rest) with
        | none => none
        | some (item, rest) =>
          match insertAt? key item path done with
          | none => none
          | some entries =>
            match skipBlanks rest with
            | ',' :: rest => members? steps depth entries rest
            | '\x7d' :: rest => some (entries, rest)
            | _ => none
      | _ => none

end

/-- Reads a value. -/
def value? (cs : List Char) : Option (Item × List Char) :=
  valueWithin? (2 * cs.length + 1) 0 cs

end TokenHighlight.Toml
