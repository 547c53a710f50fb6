import TokenHighlight.Config.Basic
import TokenHighlight.Toml.Document

/-!
# Configuration in TOML

The form in which configurations are saved. Entries that are not known are passed over. Of several
things that are wrong, the first in the document counts; only an invalid color is told.

A palette is a table of hexadecimal colors, or an array of them in the order of the roles, which may
be shorter or longer than the palette. A date in its place sets no color.

## Main definitions

* `Config.toToml`, `Config.ofToml`
-/

namespace TokenHighlight

/-- Reads a hexadecimal color. -/
def Color.ofItem : Toml.Item → Except ConfigError Color
  | .string s =>
    match ofHex? s with
    | .ok c => .ok c
    | .error e => .error (.parse (some e))
  | _ => .error (.parse none)

namespace Palette.Overrides

/-- Sets the color for the role that a key names, if it names one. -/
def addEntry (o : Overrides) (entry : String × Toml.Item) : Except ConfigError Overrides :=
  match ColorRole.all.find? (·.name = entry.1) with
  | some role => do return o.set role (← Color.ofItem entry.2)
  | none => .ok o

/-- Reads a partial palette. -/
def ofItem : Toml.Item → Except ConfigError Overrides
  | .table _ entries => entries.foldlM addEntry .unset
  | .array elements =>
    ((ColorRole.all.map ColorRole.name).zip elements).foldlM addEntry .unset
  | .datetime => .ok .unset
  | _ => .error (.parse none)

end Palette.Overrides

namespace Config

/-! ### Reading -/

/-- Takes over what an entry sets. -/
def addEntry (c : Config) (entry : String × Toml.Item) : Except ConfigError Config :=
  if entry.1 = "fill_gaps" then
    match entry.2 with
    | .bool fillGaps => .ok { c with fillGaps }
    | _ => .error (.parse none)
  else if entry.1 = "palette" then do
    return { c with palette := ← Palette.Overrides.ofItem entry.2 }
  else .ok c

/-- Reads a configuration. -/
def ofToml (text : String) : Except ConfigError Config :=
  match Toml.read? text with
  | some entries => entries.foldlM addEntry default
  | none => .error (.parse none)

/-! ### Writing -/

/-- The line for a color that is set. -/
def colorLine (role : ColorRole) (c : Color) : String :=
  role.name ++ " = \"" ++ c.toHex ++ "\"\n"

/-- A configuration as a document. -/
def toToml (c : Config) : String :=
  "fill_gaps = " ++ (if c.fillGaps then "true" else "false") ++ "\n\n[palette]\n" ++
    String.join (ColorRole.all.filterMap fun role => (c.palette.get? role).map (colorLine role))

end Config

end TokenHighlight
