import TokenHighlight.Json.Number

/-!
# Records in JSON

A record has named fields in a fixed order. It is an object, in which fields may come in any order
and members with other names are passed over, or an array that lists the fields from the first on.
No field may come twice. An array may stop early but may not go on behind the last field.

Of a value that is passed over, nothing is asked but that it is JSON.

## Main definitions

* `Json.fields?` — the values of the fields of a record
* `Json.member?` — the value of one member of an object
* `Json.textOf?`, `Json.boolOf?`, `Json.naturalOf?` — plain values
* `Json.optional?` — a value that may be null or missing
-/

namespace TokenHighlight.Json

/-- The value under a name, if there is just one; missing is `some none`, twice is an error. -/
def member? (members : List (Option String × Json)) (name : String) : Option (Option Json) :=
  match members.filter (fun m => m.1 = some name) with
  | [] => some none
  | [(_, value)] => some (some value)
  | _ => none

/-- The values of the fields of a record, in the order of their names, each if it is there. -/
def fields? (names : List String) : Json → Option (List (Option Json))
  | .object members =>
    if members.all (fun m => m.1.isSome) then names.mapM (member? members) else none
  | .array elements =>
    if elements.length ≤ names.length then
      some (elements.map some ++ List.replicate (names.length - elements.length) none)
    else none
  | _ => none

/-- A string with a text. -/
def textOf? : Json → Option String
  | .string s => s
  | _ => none

/-- A truth value. -/
def boolOf? : Json → Option Bool
  | .bool b => some b
  | _ => none

/-- A natural number of 64 bits. -/
def naturalOf? : Json → Option UInt64
  | .number n => n.natural?
  | _ => none

/-- A natural number below a bound. -/
def naturalBelow? (bound : Nat) (j : Json) : Option Nat :=
  match naturalOf? j with
  | some n => if n.toNat < bound then some n.toNat else none
  | none => none

/-- A value that may be null or missing, read by `read?` if it is neither. -/
def optional? {α : Type} (read? : Json → Option α) : Option Json → Option (Option α)
  | none => some none
  | some .null => some none
  | some j => (read? j).map some

end TokenHighlight.Json
