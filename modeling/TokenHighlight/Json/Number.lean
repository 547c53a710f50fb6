import TokenHighlight.DoublePrecision
import TokenHighlight.Json.Basic
import TokenHighlight.Text.Decimal

/-!
# Numbers in JSON

The grammar of a number, the two readings that records ask for — a natural number below a bound,
and whether the number has a finite value in double precision — and the written form.

A number that is a whole number of 64 bits is read as one only if it is written without point and
exponent. `-0` counts among the others.

## Main definitions

* `Json.Number.ofChars?`, `Json.Number.chars` — reading and writing
* `Json.Number.natural?` — the number as a natural number of 64 bits
* `Json.Number.integer?` — the number as an integer of 64 bits
* `Json.Number.isFinite` — whether it has a value in double precision
-/

namespace TokenHighlight.Json.Number

/-! ### Reading -/

/-- A decimal digit. -/
def digit? (c : Char) : Option (Fin 10) :=
  if h : '0' ≤ c ∧ c ≤ '9' then
    some ⟨c.toNat - '0'.toNat, by
      have h₂ : c.toNat ≤ 57 := h.2
      show c.toNat - 48 < 10
      omega⟩
  else none

/-- Splits a text behind its leading run of digits. -/
def takeDigits : List Char → List (Fin 10) × List Char
  | [] => ([], [])
  | c :: rest =>
    match digit? c with
    | some d => (d :: (takeDigits rest).1, (takeDigits rest).2)
    | none => ([], c :: rest)

/-- The value of a run of digits. -/
def digitsValue (ds : List (Fin 10)) : Nat :=
  ds.foldl (fun n (d : Fin 10) => 10 * n + d.val) 0

/-- The whole part: one digit, or several of which the first is not zero. -/
def whole? : List (Fin 10) → Option Nat
  | [] => none
  | [d] => some d
  | d :: rest => if d = 0 then none else some (digitsValue (d :: rest))

/-- The digits after a point, if there is a point. At least one has to follow it. -/
def fraction? : List Char → Option (List (Fin 10) × List Char)
  | '.' :: rest =>
    match takeDigits rest with
    | ([], _) => none
    | found => some found
  | cs => some ([], cs)

/-- The power of ten behind an `e`, which may have a sign and leading zeros; the text ends with
it. -/
def exponent? : List Char → Option (Option Int)
  | [] => some none
  | e :: rest =>
    if e = 'e' ∨ e = 'E' then
      let (negative, rest) :=
        match rest with
        | '-' :: rest => (true, rest)
        | '+' :: rest => (false, rest)
        | rest => (false, rest)
      match takeDigits rest with
      | ([], _) => none
      | (ds, []) => some (some (if negative then - (digitsValue ds : Int) else digitsValue ds))
      | _ => none
    else none

/-- Reads a number from the whole of a text. -/
def ofChars? (cs : List Char) : Option Number := do
  let (negative, cs) :=
    match cs with
    | '-' :: cs => (true, cs)
    | cs => (false, cs)
  let (ds, cs) := takeDigits cs
  let whole ← whole? ds
  let (fraction, cs) ← fraction? cs
  let exponent ← exponent? cs
  return { negative, whole, fraction, exponent }

/-! ### Writing -/

/-- The characters of a number. -/
def chars (n : Number) : List Char :=
  (if n.negative then ['-'] else []) ++ Text.decimal n.whole ++
    (match n.fraction with
      | [] => []
      | ds => '.' :: ds.map fun (d : Fin 10) => Nat.digitChar d.val) ++
    match n.exponent with
    | none => []
    | some e => 'e' :: (if e < 0 then ['-'] else []) ++ Text.decimal e.natAbs

/-! ### As an integer -/

/-- Whether the number is written without point and exponent. -/
def isWhole (n : Number) : Bool :=
  n.fraction.isEmpty && n.exponent.isNone

/-- The number as a natural number of 64 bits. -/
def natural? (n : Number) : Option UInt64 :=
  if n.isWhole && !n.negative && n.whole < UInt64.size then some (.ofNat n.whole) else none

/-- The number as an integer of 64 bits, with a sign if it is negative and without otherwise. -/
def integer? (n : Number) : Option Int :=
  if !n.isWhole then none
  else if n.negative then
    if 0 < n.whole ∧ n.whole ≤ Nat.pow 2 63 then some (- (n.whole : Int)) else none
  else if n.whole < UInt64.size then some n.whole else none

/-! ### In double precision

The value is taken from the leading digits that fit 64 bits, times a power of ten. Both are rounded
to double precision before they are multiplied. -/

/-- Appends digits to a significand as long as it stays within 64 bits. Each digit that fits moves
the exponent by `fitted`, each one left out by `dropped`. -/
def absorb (fitted dropped : Int) : Nat × Int → List Nat → Nat × Int
  | found, [] => found
  | (m, e), d :: rest =>
    if 10 * m + d < UInt64.size then absorb fitted dropped (10 * m + d, e + fitted) rest
    else (m, e + dropped * (rest.length + 1))

/-- Significand and power of ten. -/
def scientific (n : Number) : Nat × Int :=
  let whole := absorb 0 1 (0, 0) ((Nat.toDigits 10 n.whole).map fun c => c.toNat - '0'.toNat)
  let (m, e) := absorb (-1) 0 whole (n.fraction.map Fin.val)
  (m, e + n.exponent.getD 0)

/-- Whether the number has a finite value in double precision. -/
def isFinite (n : Number) : Bool :=
  let (m, e) := n.scientific
  if m = 0 ∨ e < 0 then true
  else if 308 < e then false
  else
    DoublePrecision.round m * DoublePrecision.round (Nat.pow 10 e.toNat) <
      DoublePrecision.infinityThreshold

end TokenHighlight.Json.Number
