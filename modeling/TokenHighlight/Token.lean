import TokenHighlight.Color

/-!
# Tokens

A token is a piece of rendered program text. With the text it carries what was known when the text
was made: an address, the bracket pair it belongs to, a variable and an operation of the underlying
program. Two attributes belong to whoever displays it: a highlight color, and a flag that marks it
as the structural partner of another token.

## Main definitions

* `Bracket` — one end of a bracket pair
* `TokenData`, `Token` — what is known of a token, and that together with how it is displayed
-/

namespace TokenHighlight

/-- One end of a bracket pair. Both ends carry the number of the pair. -/
inductive Bracket
  | opening (pair : UInt32)
  | closing (pair : UInt32)
deriving DecidableEq, Repr

namespace Bracket

/-- The number of the pair, whichever end this is. -/
def pair : Bracket → UInt32
  | opening p => p
  | closing p => p

/-- Whether this is the end that opens. -/
def isOpening : Bracket → Bool
  | opening _ => true
  | closing _ => false

end Bracket

/-- What is known of a token apart from how it is displayed. Variables and operations are handles
into a program that is kept elsewhere, told apart by number. -/
structure TokenData where
  text : String
  address : Option UInt64 := none
  bracket : Option Bracket := none
  varnode : Option UInt64 := none
  op : Option UInt64 := none
deriving DecidableEq, Repr

/-- A token with its display attributes. -/
structure Token extends TokenData where
  highlight : Option Color := none
  matching : Bool := false
deriving DecidableEq, Repr

namespace Token

/-- A token as it is before anything was displayed: without color and flag. -/
def plain (data : TokenData) : Token :=
  { data with }

/-- Whether the token has a color. -/
def isHighlighted (t : Token) : Bool :=
  t.highlight.isSome

/-- The token without color and flag. -/
def cleared (t : Token) : Token :=
  { t with highlight := none, matching := false }

@[simp] theorem cleared_plain (data : TokenData) : (plain data).cleared = plain data := rfl

@[simp] theorem cleared_cleared (t : Token) : t.cleared.cleared = t.cleared := rfl

@[simp] theorem isHighlighted_cleared (t : Token) : t.cleared.isHighlighted = false := rfl

end Token

end TokenHighlight
