import TokenHighlight.Palette

/-!
# Configuration

What a user may configure: whether gaps are filled after every selection, and some of the default
colors. What is not set is left to the defaults.

## Main definitions

* `Config`, `Config.default`
* `ConfigError` — why a configuration cannot be loaded
-/

namespace TokenHighlight

/-- The configuration of highlighting. -/
structure Config where
  /-- Whether gaps are filled after every selection. -/
  fillGaps : Bool := false
  /-- The colors that replace default ones. -/
  palette : Palette.Overrides := .unset
deriving DecidableEq, Repr

/-- The configuration in which nothing is set. -/
def Config.default : Config := {}

/-- Why a configuration cannot be loaded or saved. -/
inductive ConfigError
  /-- The file cannot be read as text, or cannot be written. -/
  | io
  /-- The text is no configuration, in one case because of a color. -/
  | parse (color : Option InvalidColor)
deriving DecidableEq, Repr

end TokenHighlight
