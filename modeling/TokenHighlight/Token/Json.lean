import TokenHighlight.Json.Record
import TokenHighlight.Token

/-!
# Tokens in JSON

A bracket is an object with one member, `open` or `close`, that holds the number of the pair. The
data of a token are a text and four fields that may be missing or null, and are left out in writing
where there is nothing to say.

## Main definitions

* `Bracket.toJson`, `Bracket.ofJson?`
* `TokenData.toMembers`, `TokenData.ofFields?` — the fields of a token in their order
-/

namespace TokenHighlight

/-- A bracket as a value. -/
def Bracket.toJson : Bracket → Json
  | .opening pair => .record [("open", .natural pair.toNat)]
  | .closing pair => .record [("close", .natural pair.toNat)]

/-- Reads a bracket. -/
def Bracket.ofJson? : Json → Option Bracket
  | .object [(some key, value)] => do
    let pair ← Json.naturalBelow? UInt32.size value
    if key = "open" then some (.opening (.ofNat pair))
    else if key = "close" then some (.closing (.ofNat pair))
    else none
  | _ => none

namespace TokenData

/-- A member that is left out if there is no value. -/
def optionalMember (name : String) (value : Option Json) : List (String × Json) :=
  match value with
  | some j => [(name, j)]
  | none => []

/-- The fields of a token, without those that say nothing. -/
def toMembers (data : TokenData) : List (String × Json) :=
  [("text", Json.text data.text)] ++
    optionalMember "address" (data.address.map (.natural ·.toNat)) ++
    optionalMember "bracket" (data.bracket.map Bracket.toJson) ++
    optionalMember "varnode" (data.varnode.map (.natural ·.toNat)) ++
    optionalMember "op" (data.op.map (.natural ·.toNat))

/-- Reads a token from the values of its fields. -/
def ofFields? : List (Option Json) → Option TokenData
  | [some text, address, bracket, varnode, op] => do
    return {
      text := ← Json.textOf? text
      address := ← Json.optional? Json.naturalOf? address
      bracket := ← Json.optional? Bracket.ofJson? bracket
      varnode := ← Json.optional? Json.naturalOf? varnode
      op := ← Json.optional? Json.naturalOf? op }
  | _ => none

end TokenData

end TokenHighlight
