/-!
# Hexadecimal digits

Reading accepts the digits in either case; writing uses the lower case.

## Main definitions

* `Text.hexValue?` — the value of one digit
* `Text.hexNumber?` — the value of a run of digits, most significant first
* `Text.hexByte` — a byte as exactly two digits

## Main statements

* `Text.hexNumber?_hexByte` — what is written for a byte reads as that byte
-/

namespace TokenHighlight.Text

/-- The value of a hexadecimal digit in either case. -/
def hexValue? (c : Char) : Option Nat :=
  if '0' ≤ c ∧ c ≤ '9' then some (c.toNat - '0'.toNat)
  else if 'a' ≤ c ∧ c ≤ 'f' then some (c.toNat - 'a'.toNat + 10)
  else if 'A' ≤ c ∧ c ≤ 'F' then some (c.toNat - 'A'.toNat + 10)
  else none

theorem hexValue?_digitChar {n : Nat} (h : n < 16) : hexValue? (Nat.digitChar n) = some n := by
  revert n
  decide

/-- Reads a run of hexadecimal digits behind a number already read. -/
def hexNumberFrom? (value : Nat) : List Char → Option Nat
  | [] => some value
  | c :: rest => do hexNumberFrom? (16 * value + (← hexValue? c)) rest

/-- Reads a run of hexadecimal digits, most significant first. The empty run reads as zero. -/
def hexNumber? (digits : List Char) : Option Nat :=
  hexNumberFrom? 0 digits

/-- A byte as two lower-case digits. -/
def hexByte (b : UInt8) : List Char :=
  [Nat.digitChar (b.toNat / 16), Nat.digitChar (b.toNat % 16)]

/-- A byte is read back from its two digits. -/
theorem hexNumber?_hexByte (b : UInt8) : hexNumber? (hexByte b) = some b.toNat := by
  have hb : b.toNat < 256 := b.toNat_lt
  simp only [hexNumber?, hexByte, hexNumberFrom?, Option.bind_eq_bind, Option.bind_some,
    hexValue?_digitChar (show b.toNat / 16 < 16 by omega),
    hexValue?_digitChar (show b.toNat % 16 < 16 by omega)]
  congr 1
  omega

end TokenHighlight.Text
