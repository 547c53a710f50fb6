import TokenHighlight.DoublePrecision
import TokenHighlight.Text.Decimal
import TokenHighlight.Text.Hex
import TokenHighlight.Toml.Item

/-!
# Plain values in TOML

Truth values, numbers, dates and times: the values that have no delimiters, so that each of them is
what stands up to the next blank, comma, bracket, brace, comment or line end.

Underscores may stand between digits. Integers have to fit 64 bits with sign, floats must not be
beyond all finite ones, except below; dates have to be in the calendar, and the seconds of a time
have to be written.

## Main definitions

* `Toml.isInteger`, `Toml.isFloat`, `Toml.isDateTime` — the classes of plain values
* `Toml.plain?` — the item that a plain value is
-/

namespace TokenHighlight.Toml

/-! ### Digits -/

/-- Reads a run of digits in which single underscores may separate digits, and takes those out. -/
def digitRun? (isDigit : Char → Bool) : List Char → Option (List Char)
  | [] => none
  | [c] => if isDigit c then some [c] else none
  | c :: '_' :: rest => if isDigit c then (digitRun? isDigit rest).map (c :: ·) else none
  | c :: rest => if isDigit c then (digitRun? isDigit rest).map (c :: ·) else none

/-- The value of a run of digits of a base, least digit last. -/
def digitsValue (base : Nat) (ds : List Char) : Nat :=
  ds.foldl (fun n c => base * n + (Text.hexValue? c).getD 0) 0

/-- Whether a character is a digit of a base, up to 16. -/
def isDigitOf (base : Nat) (c : Char) : Bool :=
  match Text.hexValue? c with
  | some d => d < base
  | none => false

/-- Takes a sign off, and tells whether it was a minus. -/
def sign : List Char → Bool × List Char
  | '-' :: rest => (true, rest)
  | '+' :: rest => (false, rest)
  | cs => (false, cs)

/-- The digits of a whole decimal number without sign. The first is zero only if it is alone. -/
def wholeDigits? (cs : List Char) : Option (List Char) := do
  let ds ← digitRun? Text.isDigit cs
  if ds.head? = some '0' ∧ cs.length ≠ 1 then none else return ds

/-! ### Integers -/

/-- Whether a text is an integer in decimal digits. -/
def isDecimalInteger (cs : List Char) : Bool :=
  let (negative, cs) := sign cs
  match wholeDigits? cs with
  | some ds => digitsValue 10 ds < if negative then Nat.pow 2 63 + 1 else Nat.pow 2 63
  | none => false

/-- Whether a text is a whole number in the digits of a base. -/
def isIntegerOf (base : Nat) (cs : List Char) : Bool :=
  match digitRun? (isDigitOf base) cs with
  | some ds => digitsValue base ds < Nat.pow 2 63
  | none => false

/-- Whether a text is an integer. The bases other than ten have a mark and no sign. -/
def isInteger : List Char → Bool
  | '0' :: 'x' :: cs => isIntegerOf 16 cs
  | '0' :: 'o' :: cs => isIntegerOf 8 cs
  | '0' :: 'b' :: cs => isIntegerOf 2 cs
  | cs => isDecimalInteger cs

/-! ### Floats -/

/-- Whether a decimal number rounds to infinity in double precision. Numbers that are plainly too
large or too small are told by their number of digits. -/
def isInfinite (digits : List Char) (exponent : Int) : Bool :=
  let m := digitsValue 10 digits
  let magnitude := (Nat.toDigits 10 m).length + exponent
  if m = 0 ∨ magnitude < 300 then false
  else if 320 < magnitude then true
  else if exponent < 0 then
    DoublePrecision.infinityThreshold * Nat.pow 10 exponent.natAbs ≤ m
  else DoublePrecision.infinityThreshold ≤ m * Nat.pow 10 exponent.natAbs

/-- Splits a text at the first character of some kind, which is left out. -/
def splitAt? (isMark : Char → Bool) (cs : List Char) : Option (List Char × List Char) :=
  match cs.dropWhile fun c => !isMark c with
  | [] => none
  | _ :: rest => some (cs.takeWhile fun c => !isMark c, rest)

/-- Whether a text is a float in digits: with a fraction, an exponent, or both. -/
def isDigitFloat (cs : List Char) : Bool :=
  let (negative, cs) := sign cs
  let (mantissa, exponent) :=
    match splitAt? (fun c => c = 'e' || c = 'E') cs with
    | some (mantissa, exponent) => (mantissa, some exponent)
    | none => (cs, none)
  let (whole, fraction) :=
    match splitAt? (· = '.') mantissa with
    | some (whole, fraction) => (whole, some fraction)
    | none => (mantissa, none)
  let fractionDigits := fraction.elim (some []) (digitRun? Text.isDigit)
  let exponentValue := exponent.elim (some 0) fun e =>
    let (negative, e) := sign e
    (digitRun? Text.isDigit e).map fun ds =>
      if negative then - (digitsValue 10 ds : Int) else digitsValue 10 ds
  match wholeDigits? whole, fractionDigits, exponentValue with
  | some ds, some fs, some e =>
    (fraction.isSome || exponent.isSome) &&
      (negative || !isInfinite (ds ++ fs) (e - fs.length))
  | _, _, _ => false

/-- Whether a text is a float. -/
def isFloat (cs : List Char) : Bool :=
  let (_, unsigned) := sign cs
  unsigned = "inf".toList || unsigned = "nan".toList || isDigitFloat cs

/-! ### Dates and times -/

/-- How many days a month has. -/
def daysIn (year month : Nat) : Nat :=
  if month = 2 then
    if year % 4 = 0 ∧ (year % 100 ≠ 0 ∨ year % 400 = 0) then 29 else 28
  else if month = 4 ∨ month = 6 ∨ month = 9 ∨ month = 11 then 30
  else 31

/-- What stands behind a date at the beginning of a text. -/
def afterDate? : List Char → Option (List Char)
  | y₃ :: y₂ :: y₁ :: y₀ :: '-' :: m₁ :: m₀ :: '-' :: d₁ :: d₀ :: rest => do
    let year ← Text.decimalNumber? [y₃, y₂, y₁, y₀]
    let month ← Text.decimalNumber? [m₁, m₀]
    let day ← Text.decimalNumber? [d₁, d₀]
    if 1 ≤ month ∧ month ≤ 12 ∧ 1 ≤ day ∧ day ≤ daysIn year month then some rest else none
  | _ => none

/-- What stands behind the fraction of a second, if a text begins with one. -/
def afterFraction? : List Char → Option (List Char)
  | '.' :: rest =>
    if (rest.takeWhile Text.isDigit).isEmpty then none else some (rest.dropWhile Text.isDigit)
  | cs => some cs

/-- What stands behind a time of day at the beginning of a text. -/
def afterTime? : List Char → Option (List Char)
  | h₁ :: h₀ :: ':' :: m₁ :: m₀ :: ':' :: s₁ :: s₀ :: rest => do
    let hour ← Text.decimalNumber? [h₁, h₀]
    let minute ← Text.decimalNumber? [m₁, m₀]
    let second ← Text.decimalNumber? [s₁, s₀]
    if hour ≤ 23 ∧ minute ≤ 59 ∧ second ≤ 60 then afterFraction? rest else none
  | _ => none

/-- Whether a text is nothing or the offset of a time. -/
def isOffset : List Char → Bool
  | [] => true
  | ['Z'] => true
  | ['z'] => true
  | [s, h₁, h₀, ':', m₁, m₀] =>
    match Text.decimalNumber? [h₁, h₀], Text.decimalNumber? [m₁, m₀] with
    | some hour, some minute => (s = '+' || s = '-') && hour ≤ 23 && minute ≤ 59
    | _, _ => false
  | _ => false

/-- Whether a text is a time of day, which may have an offset. -/
def isTimeWithOffset (cs : List Char) : Bool :=
  match afterTime? cs with
  | some rest => isOffset rest
  | none => false

/-- Whether a text is a date, a time, or a date with a time behind a `T`. -/
def isDateTime (cs : List Char) : Bool :=
  match afterDate? cs with
  | some [] => true
  | some (t :: rest) => (t = 'T' || t = 't') && isTimeWithOffset rest
  | none => afterTime? cs = some []

/-! ### Plain values -/

/-- The item that a plain value is. -/
def plain? (cs : List Char) : Option Item :=
  if cs = "true".toList then some (.bool true)
  else if cs = "false".toList then some (.bool false)
  else if isInteger cs || isFloat cs then some .number
  else if isDateTime cs then some .datetime
  else none

end TokenHighlight.Toml
