import TokenHighlight.Text.Hex

/-!
# Strings and blanks in TOML

Four forms of strings: between double quotes, with escapes, or between single quotes, without; and
each on one line, or over several lines between tripled quotes. All are read by one machine, one
character after the other.

Between tripled quotes one or two quotes are part of the text, also right before the closing ones.
A line end directly behind the opening quotes is not part of it, and a backslash at the end of a
line takes all blanks and line ends away that follow it.

## Main definitions

* `Toml.skipBlanks`, `Toml.newline?`, `Toml.lineEnd?`, `Toml.skipLayout` — what stands around values
* `Toml.StringForm`, `Toml.Mode`, `Toml.scan?` — the machine
* `Toml.string?` — a string at the beginning of a text
-/

namespace TokenHighlight.Toml

/-! ### Around values -/

/-- A blank or a tab. -/
def isBlank (c : Char) : Bool :=
  c = ' ' || c = '\t'

/-- The characters that strings and comments may hold as they are: all but controls. -/
def isPrintable (c : Char) : Bool :=
  c = '\t' || (0x20 ≤ c.toNat && c.toNat ≠ 0x7f)

/-- What stands behind blanks. -/
def skipBlanks (cs : List Char) : List Char :=
  cs.dropWhile isBlank

/-- What stands behind a line end. A carriage return has to be part of one. -/
def newline? : List Char → Option (List Char)
  | '\n' :: rest => some rest
  | '\r' :: '\n' :: rest => some rest
  | _ => none

/-- What stands behind a comment, if a text begins with one. -/
def skipComment : List Char → List Char
  | '#' :: rest => rest.dropWhile isPrintable
  | cs => cs

/-- What stands behind the rest of a line, which may hold blanks and a comment. -/
def lineEnd? (cs : List Char) : Option (List Char) :=
  match skipComment (skipBlanks cs) with
  | [] => some []
  | rest => newline? rest

/-- What stands behind blanks, line ends and comments. `inComment` says that a comment has begun. -/
def skipLayout : Bool → List Char → List Char
  | _, [] => []
  | _, '\n' :: rest => skipLayout false rest
  | _, '\r' :: '\n' :: rest => skipLayout false rest
  | true, c :: rest => if isPrintable c then skipLayout true rest else c :: rest
  | false, c :: rest =>
    if isBlank c then skipLayout false rest
    else if c = '#' then skipLayout true rest
    else c :: rest

/-! ### Strings -/

/-- The forms of strings. -/
structure StringForm where
  quote : Char
  /-- Whether a backslash begins an escape. -/
  hasEscapes : Bool
  /-- Whether the quotes are tripled. -/
  isTripled : Bool
deriving DecidableEq, Repr

/-- Where in a string the reader is. -/
inductive Mode
  /-- In the text, behind so many quotes that may be part of it or close it. -/
  | text (quotes : Nat)
  /-- Behind a backslash. -/
  | escape
  /-- In the number of a character, with so many digits to come. -/
  | scalar (value missing : Nat)
  /-- Behind a backslash and blanks, looking for the line end. -/
  | continued
  /-- Behind a backslash and a line end. -/
  | trimming
  /-- Behind a carriage return, in the text or behind a backslash. -/
  | lineEnd (isTrimming : Bool)
deriving DecidableEq, Repr

/-- What a character does: the string goes on, or it has been closed, with or before this
character. -/
inductive Scanned
  | more (mode : Mode) (text : List Char)
  | closed (text : List Char)
  | closedBefore (text : List Char)

/-- The character that an escape by letter stands for. -/
def escaped? (c : Char) : Option Char :=
  if c = '"' then some '"'
  else if c = '\\' then some '\\'
  else if c = 'b' then some '\x08'
  else if c = 'f' then some '\x0c'
  else if c = 'n' then some '\n'
  else if c = 'r' then some '\r'
  else if c = 't' then some '\t'
  else none

/-- The character with a number, which must not be half of a surrogate pair. -/
def scalar? (n : Nat) : Option Char :=
  if n < 0xd800 ∨ (0xdfff < n ∧ n < 0x110000) then some (Char.ofNat n) else none

/-- A character in the text of a string that is not a quote. -/
def scanText? (form : StringForm) (text : List Char) (c : Char) : Option Scanned :=
  if c = '\\' ∧ form.hasEscapes then some (.more .escape text)
  else if c = '\n' ∧ form.isTripled then some (.more (.text 0) (c :: text))
  else if c = '\r' ∧ form.isTripled then some (.more (.lineEnd false) text)
  else if isPrintable c then some (.more (.text 0) (c :: text))
  else none

/-- The next character of a string. The text so far is in reverse. -/
def scan? (form : StringForm) (mode : Mode) (text : List Char) (c : Char) : Option Scanned :=
  match mode with
  | .text quotes =>
    if c = form.quote then
      if !form.isTripled then some (.closed text)
      else if quotes < 5 then some (.more (.text (quotes + 1)) text)
      else none
    else if 3 ≤ quotes then
      some (.closedBefore (List.replicate (quotes - 3) form.quote ++ text))
    else scanText? form (List.replicate quotes form.quote ++ text) c
  | .escape =>
    if c = 'u' then some (.more (.scalar 0 4) text)
    else if c = 'U' then some (.more (.scalar 0 8) text)
    else if form.isTripled ∧ isBlank c then some (.more .continued text)
    else if form.isTripled ∧ c = '\n' then some (.more .trimming text)
    else if form.isTripled ∧ c = '\r' then some (.more (.lineEnd true) text)
    else (escaped? c).map fun c => .more (.text 0) (c :: text)
  | .scalar value missing => do
    let value := 16 * value + (← Text.hexValue? c)
    if missing ≤ 1 then return .more (.text 0) ((← scalar? value) :: text)
    else return .more (.scalar value (missing - 1)) text
  | .continued =>
    if isBlank c then some (.more .continued text)
    else if c = '\n' then some (.more .trimming text)
    else if c = '\r' then some (.more (.lineEnd true) text)
    else none
  | .trimming =>
    if isBlank c ∨ c = '\n' then some (.more .trimming text)
    else if c = '\r' then some (.more (.lineEnd true) text)
    else if c = form.quote then some (.more (.text 1) text)
    else scanText? form text c
  | .lineEnd isTrimming =>
    if c ≠ '\n' then none
    else if isTrimming then some (.more .trimming text)
    else some (.more (.text 0) ('\n' :: text))

/-- Reads a string to its end, and gives back what stands behind it. -/
def stringFrom? (form : StringForm) : Mode → List Char → List Char →
    Option (String × List Char)
  | .text quotes, text, [] =>
    if 3 ≤ quotes then
      some (String.ofList (List.replicate (quotes - 3) form.quote ++ text).reverse, [])
    else none
  | _, _, [] => none
  | mode, text, c :: rest =>
    match scan? form mode text c with
    | none => none
    | some (.more mode text) => stringFrom? form mode text rest
    | some (.closed text) => some (String.ofList text.reverse, rest)
    | some (.closedBefore text) => some (String.ofList text.reverse, c :: rest)

/-- The form of a string on one line. -/
def lineForm (quote : Char) : StringForm :=
  ⟨quote, quote = '"', false⟩

/-- Reads a string that stands on one line. -/
def lineString? : List Char → Option (String × List Char)
  | c :: rest =>
    if c = '"' ∨ c = '\'' then stringFrom? (lineForm c) (.text 0) [] rest else none
  | [] => none

/-- Reads a string of any form. -/
def string? : List Char → Option (String × List Char)
  | a :: b :: c :: rest =>
    if (a = '"' ∨ a = '\'') ∧ b = a ∧ c = a then
      stringFrom? { lineForm a with isTripled := true } (.text 0) [] ((newline? rest).getD rest)
    else lineString? (a :: b :: c :: rest)
  | cs => lineString? cs

end TokenHighlight.Toml
