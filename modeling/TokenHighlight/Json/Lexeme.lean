import TokenHighlight.Json.Number
import TokenHighlight.Text.Hex

/-!
# Lexemes of JSON

A text is cut into lexemes by looking at one character after the other. Words and numbers end at
the first character that cannot belong to them; whether what was collected is a word or number at
all is decided then.

Escapes by number name 16-bit units, of which two may be needed for one character. They are put
together when the string has ended.

## Main definitions

* `Json.Lexeme` — a mark, a word, a number or a string
* `Json.Piece`, `Json.Piece.join?` — what stands between quotes, and the text it spells
* `Json.Scan` — what has been collected of the current lexeme
* `Json.lexemes?` — the lexemes of a text
-/

namespace TokenHighlight.Json

/-- The smallest parts of a JSON text that have a meaning. -/
inductive Lexeme
  | openBracket
  | closeBracket
  | openBrace
  | closeBrace
  | comma
  | colon
  | null
  | bool (b : Bool)
  | number (n : Number)
  | string (text : Option String)
deriving DecidableEq, Repr

/-- What stands between the quotes of a string: characters, and units named by number. -/
inductive Piece
  | char (c : Char)
  | unit (n : Nat)
deriving DecidableEq, Repr

/-- The text that the pieces of a string spell. Two units that form a surrogate pair are one
character; half a pair is none, and leaves the whole string without a text. -/
def Piece.join? : List Piece → Option (List Char)
  | [] => some []
  | .char c :: rest => (join? rest).map (c :: ·)
  | .unit n :: rest =>
    if 0xd800 ≤ n ∧ n < 0xdc00 then
      match rest with
      | .unit m :: rest =>
        if 0xdc00 ≤ m ∧ m < 0xe000 then
          (join? rest).map (Char.ofNat (0x10000 + (n - 0xd800) * 0x400 + (m - 0xdc00)) :: ·)
        else none
      | _ => none
    else if 0xdc00 ≤ n ∧ n < 0xe000 then none
    else (join? rest).map (Char.ofNat n :: ·)

/-- The character that an escape by letter stands for. -/
def escaped? (c : Char) : Option Char :=
  if c = '"' then some '"'
  else if c = '\\' then some '\\'
  else if c = '/' then some '/'
  else if c = 'b' then some '\x08'
  else if c = 'f' then some '\x0c'
  else if c = 'n' then some '\n'
  else if c = 'r' then some '\r'
  else if c = 't' then some '\t'
  else none

/-- What has been collected of the current lexeme. Collections are in reverse. -/
inductive Scan
  /-- Between lexemes. -/
  | between
  | word (letters : List Char)
  | number (chars : List Char)
  /-- Inside a string. -/
  | string (pieces : List Piece)
  /-- Inside a string, behind a backslash. -/
  | escape (pieces : List Piece)
  /-- Inside a string, with so many digits of a unit still to come. -/
  | unit (pieces : List Piece) (value missing : Nat)
deriving DecidableEq, Repr

/-- The characters that may stand between lexemes. -/
def isBlank (c : Char) : Bool :=
  c = ' ' || c = '\t' || c = '\n' || c = '\r'

/-- The letters of which words are made. -/
def isLetter (c : Char) : Bool :=
  'a' ≤ c && c ≤ 'z'

/-- The characters of which numbers are made. -/
def isNumberChar (c : Char) : Bool :=
  Text.isDigit c || c = '-' || c = '+' || c = '.' || c = 'e' || c = 'E'

/-- A mark that is a lexeme by itself. -/
def mark? (c : Char) : Option Lexeme :=
  if c = '[' then some .openBracket
  else if c = ']' then some .closeBracket
  else if c = '\x7b' then some .openBrace
  else if c = '\x7d' then some .closeBrace
  else if c = ',' then some .comma
  else if c = ':' then some .colon
  else none

/-- The word that has been collected. -/
def word? (letters : List Char) : Option Lexeme :=
  if letters.reverse = "null".toList then some .null
  else if letters.reverse = "true".toList then some (.bool true)
  else if letters.reverse = "false".toList then some (.bool false)
  else none

/-- The number that has been collected. -/
def number? (chars : List Char) : Option Lexeme :=
  (Number.ofChars? chars.reverse).map .number

/-- A character between lexemes: the lexeme that it is, if any, and how to go on. -/
def start? (c : Char) : Option (List Lexeme × Scan) :=
  if isBlank c then some ([], .between)
  else if c = '"' then some ([], .string [])
  else if c = '-' ∨ Text.isDigit c then some ([], .number [c])
  else if isLetter c then some ([], .word [c])
  else (mark? c).map fun l => ([l], .between)

/-- A character inside a string. Control characters have to be escaped. -/
def inString? (pieces : List Piece) (c : Char) : Option (List Lexeme × Scan) :=
  if c = '"' then
    some ([.string ((Piece.join? pieces.reverse).map String.ofList)], .between)
  else if c = '\\' then some ([], .escape pieces)
  else if c.toNat < 0x20 then none
  else some ([], .string (.char c :: pieces))

/-- The next character: the lexemes that are complete with it, and how to go on. -/
def scan? : Scan → Char → Option (List Lexeme × Scan)
  | .between, c => start? c
  | .word letters, c =>
    if isLetter c then some ([], .word (c :: letters))
    else do
      let found ← word? letters
      let (next, state) ← start? c
      return (found :: next, state)
  | .number chars, c =>
    if isNumberChar c then some ([], .number (c :: chars))
    else do
      let found ← number? chars
      let (next, state) ← start? c
      return (found :: next, state)
  | .string pieces, c => inString? pieces c
  | .escape pieces, c =>
    if c = 'u' then some ([], .unit pieces 0 4)
    else (escaped? c).map fun c => ([], .string (.char c :: pieces))
  | .unit pieces value missing, c => do
    let value := 16 * value + (← Text.hexValue? c)
    if missing ≤ 1 then return ([], .string (.unit value :: pieces))
    else return ([], .unit pieces value (missing - 1))

/-- What is left when the text ends. A string that is still open is an error. -/
def finish? : Scan → Option (List Lexeme)
  | .between => some []
  | .word letters => (word? letters).map ([·])
  | .number chars => (number? chars).map ([·])
  | _ => none

/-- The lexemes of a text of which a part has been collected already; those that are complete are
in reverse. -/
def lexemesFrom? (done : List Lexeme) : Scan → List Char → Option (List Lexeme)
  | state, [] => (finish? state).map fun last => done.reverse ++ last
  | state, c :: rest =>
    match scan? state c with
    | none => none
    | some (found, state) => lexemesFrom? (found.reverse ++ done) state rest

/-- The lexemes of a text. -/
def lexemes? (cs : List Char) : Option (List Lexeme) :=
  lexemesFrom? [] .between cs

end TokenHighlight.Json
