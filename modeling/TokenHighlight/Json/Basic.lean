/-!
# JSON values

Values as they are written, with nothing interpreted that a reader of records may not care about:
members keep their order and repetitions, numbers keep their digits, and a string whose escapes
spell half of a surrogate pair is kept apart from the strings that have a text.

## Main definitions

* `Json.Number` — a number by its digits
* `Json` — a value
* `Json.depth` — how deep arrays and objects nest
* `Json.all` — whether every string inside has a text and every number passes a test
-/

namespace TokenHighlight

/-- A number as it is written: sign, whole part, the digits after the point, and the power of ten
behind an `e`. -/
structure Json.Number where
  negative : Bool := false
  whole : Nat
  /-- The digits after the point; none if there is no point. -/
  fraction : List (Fin 10) := []
  exponent : Option Int := none
deriving DecidableEq, Repr

/-- A JSON value. A string is `none` if its escapes spell no text. -/
inductive Json
  | null
  | bool (b : Bool)
  | number (n : Json.Number)
  | string (text : Option String)
  | array (elements : List Json)
  | object (members : List (Option String × Json))
deriving Repr

namespace Json

/-- A number without sign, point and exponent. -/
def natural (n : Nat) : Json :=
  .number { whole := n }

/-- A string with a text. -/
def text (s : String) : Json :=
  .string (some s)

/-- An object whose keys have texts. -/
def record (members : List (String × Json)) : Json :=
  .object (members.map fun (key, value) => (some key, value))

/-! ### Nesting -/

mutual

/-- How deep arrays and objects nest: zero for any other value. -/
def depth : Json → Nat
  | .array elements => 1 + depthElements elements
  | .object members => 1 + depthMembers members
  | _ => 0

/-- The depth of the deepest of some values. -/
def depthElements : List Json → Nat
  | [] => 0
  | j :: rest => max j.depth (depthElements rest)

/-- The depth of the deepest value among some members. -/
def depthMembers : List (Option String × Json) → Nat
  | [] => 0
  | (_, j) :: rest => max j.depth (depthMembers rest)

end

/-! ### Tests on every leaf -/

mutual

/-- Whether every number in a value passes a test and every string in it, keys included, has a
text. -/
def all (p : Number → Bool) : Json → Bool
  | .null => true
  | .bool _ => true
  | .number n => p n
  | .string s => s.isSome
  | .array elements => allElements p elements
  | .object members => allMembers p members

/-- The test of `all` on each of some values. -/
def allElements (p : Number → Bool) : List Json → Bool
  | [] => true
  | j :: rest => j.all p && allElements p rest

/-- The test of `all` on each of some members. -/
def allMembers (p : Number → Bool) : List (Option String × Json) → Bool
  | [] => true
  | (key, j) :: rest => key.isSome && j.all p && allMembers p rest

end

end Json

end TokenHighlight
