import TokenHighlight.Json.Record
import TokenHighlight.Palette

/-!
# Colors and palettes in JSON

A color is a record of its four channels, and a palette a record of its four colors; no field may
be missing. A partial palette is a record of hexadecimal colors of which any may be missing or null.

## Main definitions

* `Color.toJson`, `Color.ofJson?`
* `Palette.toJson`, `Palette.ofJson?`
* `Palette.Overrides.toJson`, `Palette.Overrides.ofJson?`
-/

namespace TokenHighlight

namespace Color

/-- A color as a record of its channels. -/
def toJson (c : Color) : Json :=
  .record [("r", .natural c.r.toNat), ("g", .natural c.g.toNat), ("b", .natural c.b.toNat),
    ("a", .natural c.a.toNat)]

/-- Reads a channel. -/
def channelOfJson? (j : Option Json) : Option UInt8 := do
  return .ofNat (← Json.naturalBelow? UInt8.size (← j))

/-- Reads a color from a record of its channels. -/
def ofJson? (j : Json) : Option Color :=
  match Json.fields? ["r", "g", "b", "a"] j with
  | some [r, g, b, a] => do
    return ⟨← channelOfJson? r, ← channelOfJson? g, ← channelOfJson? b, ← channelOfJson? a⟩
  | _ => none

/-- Reads a color from its hexadecimal form. -/
def ofHexJson? (j : Json) : Option Color := do
  (ofHex? (← Json.textOf? j)).toOption

end Color

namespace Palette

/-- A palette as a record of its colors. -/
def toJson (p : Palette) : Json :=
  .record (ColorRole.all.map fun role => (role.name, (p.get role).toJson))

/-- Reads a palette from a record of its colors. -/
def ofJson? (j : Json) : Option Palette :=
  match Json.fields? (ColorRole.all.map ColorRole.name) j with
  | some [background, highlight, special, paren] => do
    return ⟨← Color.ofJson? (← background), ← Color.ofJson? (← highlight),
      ← Color.ofJson? (← special), ← Color.ofJson? (← paren)⟩
  | _ => none

/-- A partial palette as a record of the colors that are set, in hexadecimal form. -/
def Overrides.toJson (o : Overrides) : Json :=
  .record (ColorRole.all.filterMap fun role =>
    (o.get? role).map fun c => (role.name, .text c.toHex))

/-- Reads a partial palette. -/
def Overrides.ofJson? (j : Json) : Option Overrides :=
  match Json.fields? (ColorRole.all.map ColorRole.name) j with
  | some [background, highlight, special, paren] => do
    return ⟨← Json.optional? Color.ofHexJson? background,
      ← Json.optional? Color.ofHexJson? highlight,
      ← Json.optional? Color.ofHexJson? special,
      ← Json.optional? Color.ofHexJson? paren⟩
  | _ => none

end Palette

end TokenHighlight
