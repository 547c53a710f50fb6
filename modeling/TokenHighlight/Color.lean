import TokenHighlight.Text.Hex
import TokenHighlight.Text.Quoted

/-!
# Colors

A color has four channels of eight bits: red, green, blue and alpha. It is written `#rrggbb` when
it is fully opaque and `#rrggbbaa` otherwise; both forms are read, whatever the alpha.

## Main definitions

* `Color`, `Color.rgb` — a color, and an opaque one
* `Color.toHex` — the written form
* `Color.ofHex?` — reading it, with `InvalidColor` for a text that is no color

## Main statements

* `Color.ofHex?_toHex` — the written form of a color reads as that color
-/

namespace TokenHighlight

/-- A color with its opacity: alpha 0 is fully transparent, 255 fully opaque. -/
structure Color where
  r : UInt8
  g : UInt8
  b : UInt8
  a : UInt8
deriving DecidableEq, Repr, Inhabited

/-- A text that was to name a color and does not. -/
structure InvalidColor where
  text : String
deriving DecidableEq, Repr

/-- What to tell about a text that names no color. -/
def InvalidColor.message (e : InvalidColor) : String :=
  "Invalid color: " ++ Text.quoted e.text ++ " (expected #rrggbb or #rrggbbaa)"

namespace Color

/-- A fully opaque color. -/
def rgb (r g b : UInt8) : Color :=
  ⟨r, g, b, 255⟩

/-! ### Writing -/

/-- The characters of the written form: two digits a channel, alpha only if it is not 255. -/
def hexDigits (c : Color) : List Char :=
  '#' :: Text.hexByte c.r ++ Text.hexByte c.g ++ Text.hexByte c.b ++
    if c.a = 255 then [] else Text.hexByte c.a

/-- The written form, `#rrggbb` or `#rrggbbaa`. -/
def toHex (c : Color) : String :=
  String.ofList c.hexDigits

/-! ### Reading -/

/-- One channel from its two characters: two digits in either case, or a plus sign and one. -/
def channel? (high low : Char) : Option UInt8 :=
  if high = '+' then (Text.hexNumber? [low]).map UInt8.ofNat
  else (Text.hexNumber? [high, low]).map UInt8.ofNat

theorem channel?_hexByte {b : UInt8} {high low : Char} (h : Text.hexByte b = [high, low]) :
    channel? high low = some b := by
  have hb : b.toNat < 256 := b.toNat_lt
  have hplus : high ≠ '+' := by
    simp only [Text.hexByte, List.cons.injEq] at h
    rw [← h.1]
    exact (show ∀ n < 16, Nat.digitChar n ≠ '+' by decide) _ (by omega)
  simp [channel?, hplus, ← h, Text.hexNumber?_hexByte]

/-- Reads a color from its characters: a number sign and six or eight more, two for each of red,
green, blue and, if they are there, alpha. Without them the color is opaque. -/
def ofChars? : List Char → Option Color
  | ['#', r₁, r₀, g₁, g₀, b₁, b₀] => do
    return rgb (← channel? r₁ r₀) (← channel? g₁ g₀) (← channel? b₁ b₀)
  | ['#', r₁, r₀, g₁, g₀, b₁, b₀, a₁, a₀] => do
    return ⟨← channel? r₁ r₀, ← channel? g₁ g₀, ← channel? b₁ b₀, ← channel? a₁ a₀⟩
  | _ => none

theorem ofChars?_hexDigits (c : Color) : ofChars? c.hexDigits = some c := by
  obtain ⟨r, g, b, a⟩ := c
  have hr : channel? _ _ = some r := channel?_hexByte rfl
  have hg : channel? _ _ = some g := channel?_hexByte rfl
  have hb : channel? _ _ = some b := channel?_hexByte rfl
  have ha : channel? _ _ = some a := channel?_hexByte rfl
  by_cases h : a = 255
  · simp [hexDigits, Text.hexByte, ofChars?, rgb, hr, hg, hb, h]
  · simp [hexDigits, Text.hexByte, ofChars?, hr, hg, hb, ha, h]

/-- Reads a color from its written form. -/
def ofHex? (s : String) : Except InvalidColor Color :=
  match ofChars? s.toList with
  | some c => .ok c
  | none => .error ⟨s⟩

/-- A color is read back from its written form. -/
theorem ofHex?_toHex (c : Color) : ofHex? c.toHex = .ok c := by
  simp [ofHex?, toHex, ofChars?_hexDigits]

end Color

end TokenHighlight
