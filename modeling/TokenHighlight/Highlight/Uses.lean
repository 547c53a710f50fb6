import TokenHighlight.Highlight.Basic

/-!
# Uses of variables and operations

Tokens refer to variables and operations by number. All uses below a node can be highlighted at
once; of the uses of a variable, those by one operation may get a color of their own.

## Main definitions

* `SpecialUse` — a variable together with an operation
* `Highlights.addVarnodes`, `Highlights.addOps`
-/

namespace TokenHighlight

/-- The use of a variable by an operation. -/
structure SpecialUse where
  varnode : UInt64
  op : UInt64
deriving DecidableEq, Repr

/-- Whether a token refers to both the variable and the operation. -/
def SpecialUse.isOf (s : SpecialUse) (tok : Token) : Bool :=
  tok.varnode = some s.varnode && tok.op = some s.op

/-- Whether a token refers to one of some variables. -/
def Token.usesVarnode (varnodes : List UInt64) (tok : Token) : Bool :=
  tok.varnode.any varnodes.contains

/-- Whether a token refers to one of some operations. -/
def Token.usesOp (ops : List UInt64) (tok : Token) : Bool :=
  tok.op.any ops.contains

namespace Highlights

/-- Highlights one token if it uses one of the variables, and in the special color if it is the
special use. The special use need not be of one of the variables. -/
def markVarnode (h : Highlights) (varnodes : List UInt64) (c : Color)
    (special : Option SpecialUse) (specialColor : Color) (id : NodeId) : Highlights :=
  match h.tree.token? id with
  | none => h
  | some tok =>
    let h := if tok.usesVarnode varnodes then h.mark id c else h
    if special.any (·.isOf tok) then h.mark id specialColor else h

/-- Highlights the uses of some variables below a node. -/
def addVarnodes (h : Highlights) (parent : NodeId) (varnodes : List UInt64) (c : Color)
    (special : Option SpecialUse) (specialColor : Color) : Highlights :=
  (h.tree.flatten parent).foldl
    (fun h id => h.markVarnode varnodes c special specialColor id) h

/-- Highlights the uses of some operations below a node. -/
def addOps (h : Highlights) (parent : NodeId) (ops : List UInt64) (c : Color) : Highlights :=
  h.markAll ((h.tree.flatten parent).filter fun id => (h.tree.token? id).any (·.usesOp ops)) c

end Highlights

end TokenHighlight
