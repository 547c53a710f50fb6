import TokenHighlight.Json.Reader
import TokenHighlight.Json.Record
import TokenHighlight.Json.Writer
import TokenHighlight.Token.Json
import TokenHighlight.Tree.Spec

/-!
# Descriptions of trees in JSON

A description is a record that begins with its kind. A group has one field, its children, which
may be missing if there are none; a token has a text and four fields that may be missing or null.
As an object the kind may come at any place, and members that the kind has no use for are passed
over.

The whole value has to be sound, what is passed over included: every string has a text, every
number has a finite value in double precision, and nothing nests deeper than `Spec.maxDepth`.

## Main definitions

* `Spec.toJson`, `Spec.ofJson?` — a description as a value
* `Spec.write`, `Spec.read?` — a description as a text
-/

namespace TokenHighlight.Spec

/-! ### Writing -/

mutual

/-- A description as a value. What is not known of a token is left out. -/
def toJson : Spec → Json
  | .group children =>
    .record [("kind", .text "group"), ("children", .array (listToJson children))]
  | .token data => .record ([("kind", .text "token")] ++ data.toMembers)

/-- The values of several descriptions. -/
def listToJson : List Spec → List Json
  | [] => []
  | s :: rest => s.toJson :: listToJson rest

end

/-- A description as a text. -/
def write (s : Spec) : String :=
  s.toJson.compact

/-! ### Reading -/

/-- The kinds of descriptions. -/
inductive Kind
  | group
  | token
deriving DecidableEq, Repr

/-- The fields that a kind has behind its name. -/
def Kind.fields : Kind → List String
  | .group => ["children"]
  | .token => ["text", "address", "bracket", "varnode", "op"]

/-- A kind by its name or, inside another description, by its place in the list of kinds. -/
def Kind.ofJson? (inner : Bool) : Json → Option Kind
  | .string name =>
    if name = some "group" then some .group
    else if name = some "token" then some .token
    else none
  | .number n =>
    match inner, n.natural? with
    | true, some 0 => some .group
    | true, some 1 => some .token
    | _, _ => none
  | _ => none

/-- The kind of a description and the values of its fields. -/
def split? (inner : Bool) : Json → Option (Kind × List (Option Json))
  | .object members => do
    let kind ← Kind.ofJson? inner (← ← Json.member? members "kind")
    return (kind, ← Json.fields? kind.fields (.object members))
  | .array (tag :: elements) => do
    let kind ← Kind.ofJson? inner tag
    return (kind, ← Json.fields? kind.fields (.array elements))
  | _ => none

/-- Reads a description that nests at most so many levels. -/
def ofJsonWithin? : Nat → Bool → Json → Option Spec
  | 0, _, _ => none
  | levels + 1, inner, j =>
    match split? inner j with
    | some (.group, [none]) => some (.group [])
    | some (.group, [some (.array children)]) =>
      (children.mapM (ofJsonWithin? levels true)).map .group
    | some (.token, fields) => (TokenData.ofFields? fields).map .token
    | _ => none

/-- How deep arrays and objects may nest in a description. -/
def maxDepth : Nat := 127

/-- Reads a description from a sound value. -/
def ofJson? (j : Json) : Option Spec :=
  if j.depth ≤ maxDepth && j.all Json.Number.isFinite then ofJsonWithin? maxDepth false j
  else none

/-- Reads a description from a text. -/
def read? (s : String) : Option Spec :=
  (Json.read? s).bind ofJson?

end TokenHighlight.Spec
