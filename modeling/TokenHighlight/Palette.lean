import TokenHighlight.Color

/-!
# Palettes

The colors a view falls back on, one for each role, and the partial palettes that replace some of
them.

## Main definitions

* `ColorRole` — what a default color is for
* `Palette`, `Palette.default` — a color for every role
* `Palette.Overrides` — a color for some roles, and `Palette.overlay`, which applies them

## Main statements

* `Palette.get_set`, `Palette.get_overlay` — what the color for a role is behind a change
-/

namespace TokenHighlight

/-- What a default color is for: the background behind code outside the function body, the
current highlight, the special highlight of a defining use, and the range of a bracket pair. -/
inductive ColorRole
  | background
  | highlight
  | special
  | paren
deriving DecidableEq, Repr

/-- The roles in the order in which palettes list them. -/
def ColorRole.all : List ColorRole :=
  [.background, .highlight, .special, .paren]

/-- The name of a role in saved palettes. -/
def ColorRole.name : ColorRole → String
  | .background => "background"
  | .highlight => "highlight"
  | .special => "special"
  | .paren => "paren"

/-- A color for every role. -/
structure Palette where
  background : Color
  highlight : Color
  special : Color
  paren : Color
deriving DecidableEq, Repr

namespace Palette

/-- The palette of a view that was given no other. -/
def default : Palette where
  background := .rgb 220 220 220
  highlight := ⟨255, 255, 0, 128⟩
  special := ⟨255, 100, 0, 128⟩
  paren := ⟨255, 255, 0, 128⟩

/-- The color for a role. -/
def get (p : Palette) : ColorRole → Color
  | .background => p.background
  | .highlight => p.highlight
  | .special => p.special
  | .paren => p.paren

/-- Replaces the color for one role. -/
def set (p : Palette) (role : ColorRole) (c : Color) : Palette :=
  match role with
  | .background => { p with background := c }
  | .highlight => { p with highlight := c }
  | .special => { p with special := c }
  | .paren => { p with paren := c }

theorem get_set (p : Palette) (role other : ColorRole) (c : Color) :
    (p.set role c).get other = if other = role then c else p.get other := by
  cases role <;> cases other <;> rfl

/-- A palette that leaves some colors unset. -/
structure Overrides where
  background : Option Color
  highlight : Option Color
  special : Option Color
  paren : Option Color
deriving DecidableEq, Repr

namespace Overrides

/-- No color set. -/
def unset : Overrides :=
  ⟨none, none, none, none⟩

/-- The color set for a role, if there is one. -/
def get? (o : Overrides) : ColorRole → Option Color
  | .background => o.background
  | .highlight => o.highlight
  | .special => o.special
  | .paren => o.paren

/-- Sets or unsets the color for one role. -/
def set (o : Overrides) (role : ColorRole) (c : Option Color) : Overrides :=
  match role with
  | .background => { o with background := c }
  | .highlight => { o with highlight := c }
  | .special => { o with special := c }
  | .paren => { o with paren := c }

theorem get?_set (o : Overrides) (role other : ColorRole) (c : Option Color) :
    (o.set role c).get? other = if other = role then c else o.get? other := by
  cases role <;> cases other <;> rfl

end Overrides

/-- Replaces exactly the colors that are set. -/
def overlay (p : Palette) (o : Overrides) : Palette where
  background := o.background.getD p.background
  highlight := o.highlight.getD p.highlight
  special := o.special.getD p.special
  paren := o.paren.getD p.paren

theorem get_overlay (p : Palette) (o : Overrides) (role : ColorRole) :
    (p.overlay o).get role = (o.get? role).getD (p.get role) := by
  cases role <;> rfl

@[simp] theorem overlay_unset (p : Palette) : p.overlay .unset = p := rfl

end Palette

end TokenHighlight
