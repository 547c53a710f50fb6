/-!
# Decimal digits

Only the ten ASCII digits count: no grouping marks, no digits of other scripts.

## Main definitions

* `Text.digitValue?` — the value of one digit
* `Text.decimalNumber?` — the value of a non-empty run of digits
* `Text.decimal` — a number as a run of digits without leading zeros

## Main statements

* `Text.decimalNumber?_decimal` — what is written for a number reads as that number
-/

namespace TokenHighlight.Text

/-- The value of a decimal digit. -/
def digitValue? (c : Char) : Option Nat :=
  if '0' ≤ c ∧ c ≤ '9' then some (c.toNat - '0'.toNat) else none

theorem digitValue?_digitChar {n : Nat} (h : n < 10) : digitValue? (Nat.digitChar n) = some n := by
  revert n
  decide

/-- Whether a character is a decimal digit. -/
def isDigit (c : Char) : Bool :=
  (digitValue? c).isSome

/-- Reads a run of decimal digits behind a number already read. -/
def decimalNumberFrom? (value : Nat) : List Char → Option Nat
  | [] => some value
  | c :: rest => do decimalNumberFrom? (10 * value + (← digitValue? c)) rest

theorem decimalNumberFrom?_append (value : Nat) (ds es : List Char) :
    decimalNumberFrom? value (ds ++ es) =
      (decimalNumberFrom? value ds).bind (decimalNumberFrom? · es) := by
  induction ds generalizing value with
  | nil => rfl
  | cons d ds ih =>
    cases h : digitValue? d with
    | none => simp [decimalNumberFrom?, h]
    | some v => simp [decimalNumberFrom?, h, ih]

/-- Reads a non-empty run of decimal digits; leading zeros are allowed. -/
def decimalNumber? (digits : List Char) : Option Nat :=
  if digits.isEmpty then none else decimalNumberFrom? 0 digits

/-- A number in decimal digits, without leading zeros. -/
def decimal (n : Nat) : List Char :=
  Nat.toDigits 10 n

theorem decimalNumberFrom?_decimal (n : Nat) : decimalNumberFrom? 0 (decimal n) = some n := by
  induction n using Nat.strongRecOn with
  | ind n ih =>
    unfold decimal
    by_cases h : n < 10
    · simp [Nat.toDigits_of_lt_base h, decimalNumberFrom?, digitValue?_digitChar h]
    · have hlast : n % 10 < 10 := Nat.mod_lt _ (by decide)
      have hinit : decimalNumberFrom? 0 (Nat.toDigits 10 (n / 10)) = some (n / 10) :=
        ih (n / 10) (by omega)
      rw [Nat.toDigits_of_base_le (by decide) (by omega), decimalNumberFrom?_append, hinit]
      simp [decimalNumberFrom?, digitValue?_digitChar hlast]
      omega

/-- A number is read back from its digits. -/
theorem decimalNumber?_decimal (n : Nat) : decimalNumber? (decimal n) = some n := by
  have h : (decimal n).isEmpty = false := by
    by_cases hn : n < 10
    · simp [decimal, Nat.toDigits_of_lt_base hn]
    · simp [decimal, Nat.toDigits_of_base_le (b := 10) (by decide) (show 10 ≤ n by omega)]
  simp [decimalNumber?, h, decimalNumberFrom?_decimal]

end TokenHighlight.Text
