import TokenHighlight.Text.Unprintable

/-!
# Quoted text

A text between double quotes in which every character can be told apart on paper: quotes and
backslashes are escaped, the common controls have a letter, and everything unprintable is spelled
by its number in hexadecimal, as in `\u{301}`. A single quote needs no escape.

## Main definitions

* `Text.quotedChar` — how one character is written between the quotes
* `Text.quoted` — a whole text
-/

namespace TokenHighlight.Text

/-- One character as it stands between double quotes. -/
def quotedChar (c : Char) : List Char :=
  if c = '"' then ['\\', '"']
  else if c = '\\' then ['\\', '\\']
  else if c = '\n' then ['\\', 'n']
  else if c = '\r' then ['\\', 'r']
  else if c = '\t' then ['\\', 't']
  else if c = '\x00' then ['\\', '0']
  else if isUnprintable c then
    ['\\', 'u', '\x7b'] ++ Nat.toDigits 16 c.toNat ++ ['\x7d']
  else [c]

/-- A text between double quotes, with escapes. -/
def quoted (s : String) : String :=
  String.ofList ('"' :: s.toList.flatMap quotedChar ++ ['"'])

end TokenHighlight.Text
