import TokenHighlight.Config.Basic
import TokenHighlight.Palette.Json

/-!
# Configuration in JSON

A record of two fields of which any may be missing: `fill_gaps`, a truth value, and `palette`, a
partial palette.

## Main definitions

* `Config.toJson`, `Config.ofJson?`
-/

namespace TokenHighlight.Config

/-- A configuration as a record. Colors that are not set are left out. -/
def toJson (c : Config) : Json :=
  .record [("fill_gaps", .bool c.fillGaps), ("palette", c.palette.toJson)]

/-- Reads a configuration from a record. -/
def ofJson? (j : Json) : Option Config :=
  match Json.fields? ["fill_gaps", "palette"] j with
  | some [fillGaps, palette] => do
    return {
      fillGaps := ← fillGaps.elim (some false) Json.boolOf?
      palette := ← palette.elim (some .unset) Palette.Overrides.ofJson? }
  | _ => none

end TokenHighlight.Config
