import TokenHighlight.Json.Number
import TokenHighlight.Text.Hex

/-!
# Writing JSON

The shortest layout: no blanks, and no escapes but for quotes, backslashes and control characters.

## Main definitions

* `Json.stringChars` — a text between quotes
* `Json.chars`, `Json.compact` — a value
-/

namespace TokenHighlight.Json

/-- One character as it stands between the quotes of a string. -/
def stringChar (c : Char) : List Char :=
  if c = '"' then ['\\', '"']
  else if c = '\\' then ['\\', '\\']
  else if c = '\x08' then ['\\', 'b']
  else if c = '\x0c' then ['\\', 'f']
  else if c = '\n' then ['\\', 'n']
  else if c = '\r' then ['\\', 'r']
  else if c = '\t' then ['\\', 't']
  else if c.toNat < 0x20 then ['\\', 'u', '0', '0'] ++ Text.hexByte (.ofNat c.toNat)
  else [c]

/-- A string with its quotes. One without a text is written as half of a surrogate pair. -/
def stringChars : Option String → List Char
  | some s => '"' :: s.toList.flatMap stringChar ++ ['"']
  | none => "\"\\ud800\"".toList

mutual

/-- The characters of a value. -/
def chars : Json → List Char
  | .null => "null".toList
  | .bool true => "true".toList
  | .bool false => "false".toList
  | .number n => n.chars
  | .string s => stringChars s
  | .array [] => ['[', ']']
  | .array (j :: rest) => '[' :: j.chars ++ elementChars rest
  | .object [] => ['\x7b', '\x7d']
  | .object ((key, j) :: rest) => '\x7b' :: stringChars key ++ ':' :: j.chars ++ memberChars rest

/-- The characters of an array behind its first element. -/
def elementChars : List Json → List Char
  | [] => [']']
  | j :: rest => ',' :: j.chars ++ elementChars rest

/-- The characters of an object behind its first member. -/
def memberChars : List (Option String × Json) → List Char
  | [] => ['\x7d']
  | (key, j) :: rest => ',' :: stringChars key ++ ':' :: j.chars ++ memberChars rest

end

/-- A value as a text. -/
def compact (j : Json) : String :=
  String.ofList j.chars

end TokenHighlight.Json
