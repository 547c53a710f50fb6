import TokenHighlight.Text.Hex

/-!
# Names of registrations

A registration is named by 128 bits, so that names made anywhere do not meet. They are written as
32 hexadecimal digits with hyphens behind the 8th, 12th, 16th and 20th. Reading also takes the
digits without hyphens, and the hyphened form in braces or behind `urn:uuid:`. Letters may be in
either case, those of that prefix too.

## Main definitions

* `ListenerId` — the name of a registration
* `ListenerId.toText`, `ListenerId.ofText?`
-/

namespace TokenHighlight

/-- The name of a registration. -/
structure ListenerId where
  bits : BitVec 128
deriving DecidableEq, Repr

namespace ListenerId

/-- The sizes of the groups of digits between hyphens. -/
def groupSizes : List Nat := [8, 4, 4, 4, 12]

/-- The 32 digits, most significant first. -/
def digits (id : ListenerId) : List Char :=
  (List.range 32).reverse.map fun i => Nat.digitChar (id.bits.toNat / Nat.pow 16 i % 16)

/-- Puts a hyphen between groups of the given sizes. -/
def hyphenate : List Nat → List Char → List Char
  | [], cs => cs
  | [_], cs => cs
  | n :: sizes, cs => cs.take n ++ '-' :: hyphenate sizes (cs.drop n)

/-- The written form. -/
def toText (id : ListenerId) : String :=
  String.ofList (hyphenate groupSizes id.digits)

/-- Takes the hyphens out again; each has to stand at its place. -/
def unhyphenate? : List Nat → List Char → Option (List Char)
  | [], cs => some cs
  | [_], cs => some cs
  | n :: sizes, cs =>
    match cs.drop n with
    | '-' :: rest => (unhyphenate? sizes rest).map (cs.take n ++ ·)
    | _ => none

/-- Reads 32 digits. -/
def ofDigits? (cs : List Char) : Option ListenerId :=
  if cs.length = 32 then (Text.hexNumber? cs).map fun n => ⟨.ofNat 128 n⟩ else none

/-- Reads 32 digits with hyphens between them. -/
def ofHyphenated? (cs : List Char) : Option ListenerId :=
  (unhyphenate? groupSizes cs).bind ofDigits?

/-- The prefix of names in the form of a resource. -/
def resourcePrefix : List Char := "urn:uuid:".toList

/-- What stands behind the prefix, if that is there in any case. -/
def dropResourcePrefix? (cs : List Char) : Option (List Char) :=
  if (cs.take resourcePrefix.length).map Char.toLower = resourcePrefix then
    some (cs.drop resourcePrefix.length)
  else none

/-- What stands between braces. -/
def unbrace? : List Char → Option (List Char)
  | '\x7b' :: rest => if rest.getLast? = some '\x7d' then some rest.dropLast else none
  | _ => none

/-- Reads any of the written forms. -/
def ofText? (s : String) : Option ListenerId :=
  match (unbrace? s.toList).or (dropResourcePrefix? s.toList) with
  | some inner => ofHyphenated? inner
  | none => (ofDigits? s.toList).or (ofHyphenated? s.toList)

end ListenerId

end TokenHighlight
