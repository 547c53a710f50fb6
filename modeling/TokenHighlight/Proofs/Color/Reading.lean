import Mathlib.Data.List.Basic
import TokenHighlight.Color

/-!
# What reads as a color

Writing is canonical and reading is not. Digits may be in either case, a color that is fully opaque
may have its alpha written out, and a channel is read as numbers are, so that a plus sign may stand
in the place of its first digit. The last of these is no part of the notation that the message for
invalid colors asks for. `unsigned` puts a zero for every such plus sign; up to that, to case and to
the opaque alpha, what reads as a color is what is written for it.

A text is stored in bytes, and the channels of a color are cut out of it by places counted in bytes.
A cut inside of a character or behind the end would be a fault. `ofSlices?` reads in this way, with
`none` for a fault. It never comes to one, since it looks at the whole text before it cuts: all
characters must be ASCII, which have one byte each, and there must be six or eight of them.

## Main definitions

* `Color.unsigned` — a text with zeros for the plus signs that lead a channel
* `Text.slice?` — a part of a text by places in bytes
* `Text.signedByte?` — a byte as numbers are read, with a sign
* `Color.ofSlices?` — reading by slices

## Main results

* `Text.hexValue?_eq_some_iff` — digits are told apart by their lower case
* `Color.ofChars?_eq_some_iff` — what reads as a color
* `Color.ofSlices?_eq` — slices are always there, and the same is read from them
* `Color.reads_as_written` — the whole contract of reading colors
-/

namespace TokenHighlight

namespace Text

/-! ### Digits -/

/-- To check all ASCII characters is to check their numbers. -/
theorem forall_lt_of_forall_ofNat {P : Char → Prop} (hP : ∀ n < 128, P (Char.ofNat n)) {c : Char}
    (hc : c.toNat < 128) : P c := by
  have h := hP c.toNat hc
  rwa [Char.ofNat_toNat] at h

theorem toNat_lt_of_hexValue? {c : Char} {n : Nat} (h : hexValue? c = some n) : c.toNat < 128 := by
  unfold hexValue? at h
  simp only [Char.le_def, UInt32.le_iff_toNat_le] at h
  split at h
  · next hc => exact Nat.lt_of_le_of_lt hc.2 (by decide)
  · split at h
    · next hc => exact Nat.lt_of_le_of_lt hc.2 (by decide)
    · split at h
      · next hc => exact Nat.lt_of_le_of_lt hc.2 (by decide)
      · cases h

theorem toLower_eq_self {c : Char} (hc : 128 ≤ c.toNat) : c.toLower = c := by
  refine dif_neg ?_
  rintro ⟨-, h⟩
  have hle : c.toNat ≤ 'Z'.toNat := h
  exact absurd (Nat.le_trans hc hle) (by decide)

theorem hexValue?_toLower (c : Char) : hexValue? c.toLower = hexValue? c := by
  by_cases hc : c.toNat < 128
  · exact forall_lt_of_forall_ofNat (P := fun c => hexValue? c.toLower = hexValue? c) (by decide) hc
  · rw [toLower_eq_self (Nat.le_of_not_lt hc)]

theorem eq_hash_of_toLower {c : Char} (h : c.toLower = '#') : c = '#' := by
  by_cases hc : c.toNat < 128
  · exact forall_lt_of_forall_ofNat (P := fun c => c.toLower = '#' → c = '#') (by decide) hc h
  · rwa [toLower_eq_self (Nat.le_of_not_lt hc)] at h

/-- A digit is read in either case, and told from other digits by its lower case. -/
theorem hexValue?_eq_some_iff {c : Char} {n : Nat} :
    hexValue? c = some n ↔ n < 16 ∧ c.toLower = Nat.digitChar n := by
  constructor
  · intro h
    refine forall_lt_of_forall_ofNat
      (P := fun c => ∀ n ∈ hexValue? c, n < 16 ∧ c.toLower = Nat.digitChar n) (by decide)
      (toNat_lt_of_hexValue? h) n h
  · rintro ⟨hn, hc⟩
    rw [← hexValue?_toLower, hc, hexValue?_digitChar hn]

/-- Two digits make the byte that has them, in lower case, as its written form. -/
theorem hexNumber?_pair_eq_some_iff {high low : Char} {b : UInt8} :
    (hexNumber? [high, low]).map UInt8.ofNat = some b ↔
      [high.toLower, low.toLower] = hexByte b := by
  have hb : b.toNat < 256 := b.toNat_lt
  simp only [hexNumber?, hexNumberFrom?, hexByte, List.cons.injEq, and_true,
    Option.bind_eq_bind]
  constructor
  · intro h
    obtain ⟨n, hn, rfl⟩ := Option.map_eq_some_iff.1 h
    obtain ⟨x, hx, hn⟩ := Option.bind_eq_some_iff.1 hn
    obtain ⟨y, hy, hn⟩ := Option.bind_eq_some_iff.1 hn
    obtain ⟨hx, hhigh⟩ := hexValue?_eq_some_iff.1 hx
    obtain ⟨hy, hlow⟩ := hexValue?_eq_some_iff.1 hy
    obtain rfl : 16 * (16 * 0 + x) + y = n := Option.some.inj hn
    have hlt : 16 * (16 * 0 + x) + y < UInt8.size := by
      rw [UInt8.size]
      omega
    rw [hhigh, hlow, UInt8.toNat_ofNat_of_lt' hlt, show (16 * (16 * 0 + x) + y) / 16 = x by omega,
      show (16 * (16 * 0 + x) + y) % 16 = y by omega]
    exact ⟨rfl, rfl⟩
  · rintro ⟨hhigh, hlow⟩
    have hx : hexValue? high = some (b.toNat / 16) :=
      hexValue?_eq_some_iff.2 ⟨by omega, hhigh⟩
    have hy : hexValue? low = some (b.toNat % 16) :=
      hexValue?_eq_some_iff.2 ⟨by omega, hlow⟩
    rw [hx, hy, Option.bind_some, Option.bind_some, Option.map_some,
      show 16 * (16 * 0 + b.toNat / 16) + b.toNat % 16 = b.toNat by omega, UInt8.ofNat_toNat]

end Text

/-! ### Channels -/

namespace Color

/-- The characters of several channels, with a zero for each plus sign that leads one. -/
def unsignedChannels : List Char → List Char
  | high :: low :: rest => (if high = '+' then '0' else high) :: low :: unsignedChannels rest
  | cs => cs

/-- A text with a zero for each plus sign that leads a channel. -/
def unsigned (s : String) : String :=
  String.ofList <|
    match s.toList with
    | '#' :: cs => '#' :: unsignedChannels cs
    | cs => cs

/-- A plus sign stands for a zero. -/
theorem channel?_eq (high low : Char) :
    channel? high low =
      (Text.hexNumber? [if high = '+' then '0' else high, low]).map UInt8.ofNat := by
  rw [channel?]
  split
  · rfl
  · rfl

theorem channel?_eq_some_iff {high low : Char} {b : UInt8} :
    channel? high low = some b ↔
      [(if high = '+' then '0' else high).toLower, low.toLower] = Text.hexByte b := by
  rw [channel?_eq, Text.hexNumber?_pair_eq_some_iff]

/-- The digits of a byte at the beginning are those of the first channel. -/
theorem lower_unsignedChannels_eq_append_iff {cs rest : List Char} {b : UInt8} :
    (unsignedChannels cs).map Char.toLower = Text.hexByte b ++ rest ↔
      ∃ high low cs', cs = high :: low :: cs' ∧ channel? high low = some b ∧
        (unsignedChannels cs').map Char.toLower = rest := by
  constructor
  · intro h
    match cs with
    | [] => simp [unsignedChannels, Text.hexByte] at h
    | [c] => simp [unsignedChannels, Text.hexByte] at h
    | high :: low :: cs' =>
      have happend : [(if high = '+' then '0' else high).toLower, low.toLower] ++
          (unsignedChannels cs').map Char.toLower = Text.hexByte b ++ rest := h
      obtain ⟨hdigits, hrest⟩ := List.append_inj happend rfl
      exact ⟨high, low, cs', rfl, channel?_eq_some_iff.2 hdigits, hrest⟩
  · rintro ⟨high, low, cs', rfl, hchannel, rfl⟩
    rw [← channel?_eq_some_iff.1 hchannel]
    rfl

theorem lower_unsignedChannels_eq_nil_iff {cs : List Char} :
    (unsignedChannels cs).map Char.toLower = [] ↔ cs = [] := by
  rw [List.map_eq_nil_iff]
  fun_cases unsignedChannels cs with
  | case1 high low rest => simp
  | case2 cs => rfl

/-- The digits for red, green and blue. -/
def rgbDigits (c : Color) : List Char :=
  Text.hexByte c.r ++ (Text.hexByte c.g ++ Text.hexByte c.b)

theorem lower_unsignedChannels_eq_rgbDigits_iff {cs rest : List Char} {c : Color} :
    (unsignedChannels cs).map Char.toLower = c.rgbDigits ++ rest ↔
      ∃ r₁ r₀ g₁ g₀ b₁ b₀ cs', cs = r₁ :: r₀ :: g₁ :: g₀ :: b₁ :: b₀ :: cs' ∧
        channel? r₁ r₀ = some c.r ∧ channel? g₁ g₀ = some c.g ∧ channel? b₁ b₀ = some c.b ∧
        (unsignedChannels cs').map Char.toLower = rest := by
  rw [rgbDigits, List.append_assoc, List.append_assoc, lower_unsignedChannels_eq_append_iff]
  constructor
  · rintro ⟨r₁, r₀, _, rfl, hr, h⟩
    obtain ⟨g₁, g₀, _, rfl, hg, h⟩ := lower_unsignedChannels_eq_append_iff.1 h
    obtain ⟨b₁, b₀, cs', rfl, hb, h⟩ := lower_unsignedChannels_eq_append_iff.1 h
    exact ⟨r₁, r₀, g₁, g₀, b₁, b₀, cs', rfl, hr, hg, hb, h⟩
  · rintro ⟨r₁, r₀, g₁, g₀, b₁, b₀, cs', rfl, hr, hg, hb, h⟩
    exact ⟨r₁, r₀, _, rfl, hr, lower_unsignedChannels_eq_append_iff.2 ⟨g₁, g₀, _, rfl, hg,
      lower_unsignedChannels_eq_append_iff.2 ⟨b₁, b₀, cs', rfl, hb, h⟩⟩⟩

/-- **What reads as a color.** Behind the number sign stand the digits of the color, in either case
and with a plus sign for a leading zero here and there. Those of the alpha may be left out if it is
opaque. -/
theorem ofChars?_eq_some_iff {cs : List Char} {c : Color} :
    ofChars? cs = some c ↔
      ∃ hex, cs = '#' :: hex ∧
        ((unsignedChannels hex).map Char.toLower = c.rgbDigits ∧ c.a = 255 ∨
          (unsignedChannels hex).map Char.toLower = c.rgbDigits ++ Text.hexByte c.a) := by
  constructor
  · intro h
    unfold ofChars? at h
    split at h
    · obtain ⟨r, hr, h⟩ := Option.bind_eq_some_iff.1 h
      obtain ⟨g, hg, h⟩ := Option.bind_eq_some_iff.1 h
      obtain ⟨b, hb, h⟩ := Option.bind_eq_some_iff.1 h
      cases h
      refine ⟨_, rfl, Or.inl ⟨?_, rfl⟩⟩
      rw [← List.append_nil (rgbDigits _)]
      exact lower_unsignedChannels_eq_rgbDigits_iff.2 ⟨_, _, _, _, _, _, [], rfl, hr, hg, hb, rfl⟩
    · obtain ⟨r, hr, h⟩ := Option.bind_eq_some_iff.1 h
      obtain ⟨g, hg, h⟩ := Option.bind_eq_some_iff.1 h
      obtain ⟨b, hb, h⟩ := Option.bind_eq_some_iff.1 h
      obtain ⟨a, ha, h⟩ := Option.bind_eq_some_iff.1 h
      cases h
      refine ⟨_, rfl, Or.inr (lower_unsignedChannels_eq_rgbDigits_iff.2
        ⟨_, _, _, _, _, _, _, rfl, hr, hg, hb, ?_⟩)⟩
      exact channel?_eq_some_iff.1 ha
    · cases h
  · obtain ⟨r, g, b, a⟩ := c
    rintro ⟨hex, rfl, ⟨hdigits, rfl⟩ | hdigits⟩
    · rw [← List.append_nil (rgbDigits _)] at hdigits
      obtain ⟨r₁, r₀, g₁, g₀, b₁, b₀, cs', rfl, hr, hg, hb, hnil⟩ :=
        lower_unsignedChannels_eq_rgbDigits_iff.1 hdigits
      obtain rfl := lower_unsignedChannels_eq_nil_iff.1 hnil
      simp [ofChars?, hr, hg, hb, rgb]
    · rw [← List.append_nil (Text.hexByte _)] at hdigits
      obtain ⟨r₁, r₀, g₁, g₀, b₁, b₀, cs', rfl, hr, hg, hb, hdigits⟩ :=
        lower_unsignedChannels_eq_rgbDigits_iff.1 hdigits
      obtain ⟨a₁, a₀, cs', rfl, ha, hnil⟩ := lower_unsignedChannels_eq_append_iff.1 hdigits
      obtain rfl := lower_unsignedChannels_eq_nil_iff.1 hnil
      simp [ofChars?, hr, hg, hb, ha]

theorem hexByte_opaque : Text.hexByte 255 = ['f', 'f'] := by decide

theorem toList_toHex (c : Color) :
    c.toHex.toList = '#' :: (c.rgbDigits ++ if c.a = 255 then [] else Text.hexByte c.a) := by
  rw [toHex, String.toList_ofList, hexDigits, rgbDigits]
  simp only [List.cons_append, List.append_assoc]

theorem toList_toLower (s : String) : s.toLower.toList = s.toList.map Char.toLower :=
  String.toList_map

theorem toList_lower_unsigned_eq_cons_iff {s : String} {digits : List Char} :
    (unsigned s).toLower.toList = '#' :: digits ↔
      ∃ hex, s.toList = '#' :: hex ∧ (unsignedChannels hex).map Char.toLower = digits := by
  rw [toList_toLower, unsigned, String.toList_ofList]
  split
  · next hex hs =>
    rw [List.map_cons, show '#'.toLower = '#' from rfl, List.cons.injEq, hs]
    simp
  · next hne =>
    constructor
    · intro h
      obtain ⟨c, hex, hs, hc, _⟩ := List.map_eq_cons_iff.1 h
      exact absurd (by rw [hs, Text.eq_hash_of_toLower hc]) (hne hex)
    · rintro ⟨hex, hs, _⟩
      exact absurd hs (hne hex)

theorem ofHex?_eq_ok_iff_ofChars? {s : String} {c : Color} :
    ofHex? s = .ok c ↔ ofChars? s.toList = some c := by
  rw [ofHex?]
  split
  · next h => simp [h]
  · next h => simp [h]

/-- A text is the written form of a color, up to the case of letters, or has the alpha of an opaque
color behind it. -/
def IsWrittenAs (c : Color) (s : String) : Prop :=
  s.toLower = c.toHex ∨ c.a = 255 ∧ s.toLower = c.toHex ++ "ff"

/-- Up to plus signs, what reads as a color is what it is written as. -/
theorem ofHex?_eq_ok_iff {s : String} {c : Color} :
    ofHex? s = .ok c ↔ c.IsWrittenAs (unsigned s) := by
  rw [ofHex?_eq_ok_iff_ofChars?, ofChars?_eq_some_iff, IsWrittenAs, ← String.toList_inj,
    ← String.toList_inj, String.toList_append, toList_toHex, List.cons_append,
    toList_lower_unsigned_eq_cons_iff, toList_lower_unsigned_eq_cons_iff, List.append_assoc]
  by_cases ha : c.a = 255
  · rw [if_pos ha, ha, hexByte_opaque, List.append_nil, List.nil_append]
    constructor
    · rintro ⟨hex, hs, ⟨h, _⟩ | h⟩
      · exact Or.inl ⟨hex, hs, h⟩
      · exact Or.inr ⟨rfl, hex, hs, h⟩
    · rintro (⟨hex, hs, h⟩ | ⟨_, hex, hs, h⟩)
      · exact ⟨hex, hs, Or.inl ⟨h, rfl⟩⟩
      · exact ⟨hex, hs, Or.inr h⟩
  · rw [if_neg ha, or_iff_left fun h => ha h.1]
    refine exists_congr fun hex => and_congr_right fun _ => ?_
    exact or_iff_right fun h => ha h.2

/-! ### Plus signs -/

theorem unsignedChannels_eq_self {cs : List Char} (h : '+' ∉ cs) : unsignedChannels cs = cs := by
  fun_induction unsignedChannels cs with
  | case1 high low rest ih =>
    simp only [List.mem_cons, not_or] at h
    rw [if_neg (Ne.symm h.1), ih h.2.2]
  | case2 cs => rfl

theorem unsigned_eq_self {s : String} (h : '+' ∉ s.toList) : unsigned s = s := by
  rw [unsigned]
  split
  · next hex hs =>
    rw [hs, List.mem_cons, not_or] at h
    rw [unsignedChannels_eq_self h.2, ← hs, String.ofList_toList]
  · exact String.ofList_toList

theorem plus_notMem_hexByte (b : UInt8) : '+' ∉ Text.hexByte b := by
  have hb : b.toNat < 256 := b.toNat_lt
  have hdigit : ∀ n < 16, '+' ≠ Nat.digitChar n := by decide
  simp only [Text.hexByte, List.mem_cons, List.not_mem_nil, or_false, not_or]
  exact ⟨hdigit _ (by omega), hdigit _ (by omega)⟩

/-- No written form has a plus sign. -/
theorem IsWrittenAs.plus_notMem {s : String} {c : Color} (h : c.IsWrittenAs s) :
    '+' ∉ s.toList := by
  intro hplus
  have hwritten : '+' ∉ c.toHex.toList := by
    rw [toList_toHex, rgbDigits]
    simp only [List.mem_cons, List.mem_append, plus_notMem_hexByte, or_false, false_or, not_or]
    refine ⟨by decide, ?_⟩
    split
    · exact List.not_mem_nil
    · exact plus_notMem_hexByte c.a
  have hlower : '+' ∈ s.toLower.toList := by
    rw [toList_toLower]
    exact List.mem_map.2 ⟨'+', hplus, rfl⟩
  rcases h with h | ⟨_, h⟩
  · rw [h] at hlower
    exact hwritten hlower
  · rw [h, String.toList_append, List.mem_append] at hlower
    exact hlower.elim hwritten (by decide)

end Color

/-! ### Slices -/

namespace Text

/-- Cuts a text in two behind so many bytes. Nothing if that place is inside of a character or
behind the end. -/
def splitAtByte? : Nat → List Char → Option (List Char × List Char)
  | 0, cs => some ([], cs)
  | _ + 1, [] => none
  | n + 1, c :: cs =>
    if c.utf8Size ≤ n + 1 then
      (splitAtByte? (n + 1 - c.utf8Size) cs).map fun (before, after) => (c :: before, after)
    else none

/-- The part of a text from one place to another one, counted in bytes. -/
def slice? (i j : Nat) (cs : List Char) : Option (List Char) := do
  let (before, _) ← splitAtByte? j cs
  let (_, part) ← splitAtByte? i before
  return part

/-- How many bytes a text has. -/
def byteSize : List Char → Nat
  | [] => 0
  | c :: cs => c.utf8Size + byteSize cs

/-- What follows a plus sign, or everything if there is none in front. -/
def withoutPlus : List Char → List Char
  | [] => []
  | c :: cs => if c = '+' then cs else c :: cs

/-- A byte in hexadecimal digits, read as numbers are: a plus sign may stand before the digits, of
which there is at least one, and a number that is too great is none. -/
def signedByte? (cs : List Char) : Option UInt8 :=
  if (withoutPlus cs).isEmpty then none
  else ((hexNumber? (withoutPlus cs)).filter (· < 256)).map UInt8.ofNat

variable {cs : List Char}

theorem splitAtByte?_of_isAscii {n : Nat} (hcs : ∀ c ∈ cs, c.utf8Size = 1) (hn : n ≤ cs.length) :
    splitAtByte? n cs = some (cs.take n, cs.drop n) := by
  induction cs generalizing n with
  | nil =>
    obtain rfl : n = 0 := Nat.le_zero.1 hn
    rfl
  | cons c cs ih =>
    obtain ⟨hc, hcs⟩ := List.forall_mem_cons.1 hcs
    cases n with
    | zero => rfl
    | succ n =>
      rw [splitAtByte?, hc, if_pos (Nat.le_add_left 1 n), Nat.add_sub_cancel,
        ih hcs (Nat.le_of_succ_le_succ hn)]
      rfl

/-- In a text of ASCII characters every place up to the end is one between characters. -/
theorem slice?_of_isAscii {i j : Nat} (hcs : ∀ c ∈ cs, c.utf8Size = 1) (hij : i ≤ j)
    (hj : j ≤ cs.length) : slice? i j cs = some ((cs.take j).drop i) := by
  have hbefore : ∀ c ∈ cs.take j, c.utf8Size = 1 := fun c hc => hcs c (List.mem_of_mem_take hc)
  have hi : i ≤ (cs.take j).length := by rwa [List.length_take_of_le hj]
  simp only [slice?, splitAtByte?_of_isAscii hcs hj, splitAtByte?_of_isAscii hbefore hi,
    Option.bind_eq_bind, Option.bind_some, Option.pure_def]

theorem byteSize_of_isAscii (hcs : ∀ c ∈ cs, c.utf8Size = 1) : byteSize cs = cs.length := by
  induction cs with
  | nil => rfl
  | cons c cs ih =>
    rw [byteSize, ih fun x hx => hcs x (List.mem_cons_of_mem c hx), hcs c List.mem_cons_self,
      List.length_cons, Nat.add_comm]

theorem hexNumberFrom?_lt {value n : Nat} (h : hexNumberFrom? value cs = some n) :
    n < (value + 1) * Nat.pow 16 cs.length := by
  induction cs generalizing value with
  | nil =>
    obtain rfl : value = n := Option.some.inj h
    exact Nat.lt_of_lt_of_eq (Nat.lt_succ_self value) (Nat.mul_one _).symm
  | cons c cs ih =>
    obtain ⟨v, hv, hn⟩ := Option.bind_eq_some_iff.1 h
    have hlt : v < 16 := (hexValue?_eq_some_iff.1 hv).1
    calc n < (16 * value + v + 1) * Nat.pow 16 cs.length := ih hn
      _ ≤ ((value + 1) * 16) * Nat.pow 16 cs.length := Nat.mul_le_mul_right _ (by omega)
      _ = (value + 1) * (Nat.pow 16 cs.length * 16) := by
        rw [Nat.mul_assoc, Nat.mul_comm 16]

/-- Two characters never make too great a number, so they are read as a channel. -/
theorem signedByte?_pair (high low : Char) : signedByte? [high, low] = Color.channel? high low := by
  have hdigits : withoutPlus [high, low] = if high = '+' then [low] else [high, low] := rfl
  have hlength : (withoutPlus [high, low]).length ≤ 2 := by
    rw [hdigits]
    split <;> simp
  have hkept : (hexNumber? (withoutPlus [high, low])).filter (· < 256) =
      hexNumber? (withoutPlus [high, low]) := by
    cases hn : hexNumber? (withoutPlus [high, low]) with
    | none => rfl
    | some n =>
      have hlt : n < 256 :=
        calc n < 1 * Nat.pow 16 (withoutPlus [high, low]).length := hexNumberFrom?_lt hn
          _ ≤ 1 * Nat.pow 16 2 :=
            Nat.mul_le_mul_left 1 (Nat.pow_le_pow_right (by decide) hlength)
      rw [Option.filter_some, if_pos (decide_eq_true hlt)]
  rw [signedByte?, hkept, Color.channel?, hdigits]
  split
  · rfl
  · rfl

end Text

namespace Color

/-- A channel, cut out of a text at a place. `none` is a fault. -/
def channelAt (s : String) (hex : List Char) (i : Nat) : ExceptT InvalidColor Option UInt8 := do
  match Text.signedByte? (← liftM (Text.slice? i (i + 2) hex)) with
  | some b => return b
  | none => throw ⟨s⟩

/-- Reads a color by slices of its text. `none` is a fault. -/
def ofSlices? (s : String) : Option (Except InvalidColor Color) :=
  ExceptT.run do
    match s.toList with
    | '#' :: hex =>
      if hex.all (·.toNat < 128) ∧ (Text.byteSize hex = 6 ∨ Text.byteSize hex = 8) then
        let a ← if Text.byteSize hex = 8 then channelAt s hex 6 else pure 255
        return ⟨← channelAt s hex 0, ← channelAt s hex 2, ← channelAt s hex 4, a⟩
      else throw ⟨s⟩
    | _ => throw ⟨s⟩

theorem utf8Size_eq_one {c : Char} (hc : c.toNat < 128) : c.utf8Size = 1 :=
  Char.utf8Size_eq_one_iff.2 (Nat.le_of_lt_succ hc)

/-- A channel that is there is read from its two characters. -/
theorem channelAt_eq {s : String} {hex : List Char} {i : Nat} {high low : Char}
    (hhex : ∀ c ∈ hex, c.toNat < 128) (hi : i + 2 ≤ hex.length)
    (hpart : (hex.take (i + 2)).drop i = [high, low]) :
    channelAt s hex i =
      match channel? high low with
      | some b => pure b
      | none => throw ⟨s⟩ := by
  have hslice : Text.slice? i (i + 2) hex = some [high, low] := by
    rw [← hpart]
    exact Text.slice?_of_isAscii (fun c hc => utf8Size_eq_one (hhex c hc)) (Nat.le_add_right i 2) hi
  rw [channelAt, hslice, ← Text.signedByte?_pair]
  rfl

/-- The characters of a channel are ASCII. -/
theorem toNat_lt_of_channel? {high low : Char} {b : UInt8} (h : channel? high low = some b) :
    high.toNat < 128 ∧ low.toNat < 128 := by
  rw [channel?_eq] at h
  obtain ⟨n, hn, _⟩ := Option.map_eq_some_iff.1 h
  obtain ⟨x, hx, hn⟩ := Option.bind_eq_some_iff.1 hn
  obtain ⟨y, hy, _⟩ := Option.bind_eq_some_iff.1 hn
  refine ⟨?_, Text.toNat_lt_of_hexValue? hy⟩
  split at hx
  · next hplus =>
    rw [hplus]
    decide
  · exact Text.toNat_lt_of_hexValue? hx

/-- A text that reads as a color may be cut into channels. -/
theorem sliceable_of_ofChars? {cs : List Char} {c : Color} (h : ofChars? cs = some c) :
    ∃ hex, cs = '#' :: hex ∧ (∀ x ∈ hex, x.toNat < 128) ∧ (hex.length = 6 ∨ hex.length = 8) := by
  unfold ofChars? at h
  split at h
  · obtain ⟨r, hr, h⟩ := Option.bind_eq_some_iff.1 h
    obtain ⟨g, hg, h⟩ := Option.bind_eq_some_iff.1 h
    obtain ⟨b, hb, _⟩ := Option.bind_eq_some_iff.1 h
    refine ⟨_, rfl, ?_, Or.inl rfl⟩
    simp [toNat_lt_of_channel? hr, toNat_lt_of_channel? hg, toNat_lt_of_channel? hb]
  · obtain ⟨r, hr, h⟩ := Option.bind_eq_some_iff.1 h
    obtain ⟨g, hg, h⟩ := Option.bind_eq_some_iff.1 h
    obtain ⟨b, hb, h⟩ := Option.bind_eq_some_iff.1 h
    obtain ⟨a, ha, _⟩ := Option.bind_eq_some_iff.1 h
    refine ⟨_, rfl, ?_, Or.inr rfl⟩
    simp [toNat_lt_of_channel? hr, toNat_lt_of_channel? hg, toNat_lt_of_channel? hb,
      toNat_lt_of_channel? ha]
  · cases h

theorem ofHex?_of_ofChars?_eq_none {s : String} (h : ofChars? s.toList = none) :
    ofHex? s = .error ⟨s⟩ := by
  rw [ofHex?, h]

/-- The characters of the first channel, and those behind them. -/
theorem exists_pair_of_length {hex : List Char} {n : Nat} (h : hex.length = n + 2) :
    ∃ high low rest, hex = high :: low :: rest ∧ rest.length = n := by
  obtain ⟨high, behind, rfl, hbehind⟩ := List.length_eq_succ_iff.1 h
  obtain ⟨low, rest, rfl, hrest⟩ := List.length_eq_succ_iff.1 hbehind
  exact ⟨high, low, rest, rfl, hrest⟩

/-- **No slice is a fault**, and what is read from slices is what is read from characters. -/
theorem ofSlices?_eq (s : String) : ofSlices? s = some (ofHex? s) := by
  rw [ofSlices?]
  split
  · next hex hs =>
    split
    · next hsliceable =>
      obtain ⟨hall, hsize⟩ := hsliceable
      have hascii : ∀ c ∈ hex, c.toNat < 128 :=
        fun c hc => of_decide_eq_true (List.all_eq_true.1 hall c hc)
      have hbytes : Text.byteSize hex = hex.length :=
        Text.byteSize_of_isAscii fun c hc => utf8Size_eq_one (hascii c hc)
      rw [hbytes] at hsize ⊢
      rw [ofHex?, hs]
      rcases hsize with hsize | hsize
      · obtain ⟨r₁, r₀, _, rfl, hr⟩ := exists_pair_of_length hsize
        obtain ⟨g₁, g₀, _, rfl, hg⟩ := exists_pair_of_length hr
        obtain ⟨b₁, b₀, _, rfl, hb⟩ := exists_pair_of_length hg
        obtain rfl := List.length_eq_zero_iff.1 hb
        rw [if_neg (by simp), channelAt_eq hascii (i := 0) (by simp) rfl,
          channelAt_eq hascii (i := 2) (by simp) rfl, channelAt_eq hascii (i := 4) (by simp) rfl,
          ofChars?]
        cases channel? r₁ r₀ <;> cases channel? g₁ g₀ <;> cases channel? b₁ b₀ <;> rfl
      · obtain ⟨r₁, r₀, _, rfl, hr⟩ := exists_pair_of_length hsize
        obtain ⟨g₁, g₀, _, rfl, hg⟩ := exists_pair_of_length hr
        obtain ⟨b₁, b₀, _, rfl, hb⟩ := exists_pair_of_length hg
        obtain ⟨a₁, a₀, _, rfl, ha⟩ := exists_pair_of_length hb
        obtain rfl := List.length_eq_zero_iff.1 ha
        rw [if_pos (by simp), channelAt_eq hascii (i := 0) (by simp) rfl,
          channelAt_eq hascii (i := 2) (by simp) rfl, channelAt_eq hascii (i := 4) (by simp) rfl,
          channelAt_eq hascii (i := 6) (by simp) rfl, ofChars?]
        cases channel? r₁ r₀ <;> cases channel? g₁ g₀ <;> cases channel? b₁ b₀ <;>
          cases channel? a₁ a₀ <;> rfl
    · next hnot =>
      rw [ofHex?_of_ofChars?_eq_none]
      · rfl
      · refine Option.eq_none_iff_forall_ne_some.2 fun c hc => hnot ?_
        obtain ⟨hex', hs', hascii, hlength⟩ := sliceable_of_ofChars? hc
        rw [hs] at hs'
        obtain rfl : hex = hex' := (List.cons.inj hs').2
        rw [Text.byteSize_of_isAscii fun c hc => utf8Size_eq_one (hascii c hc)]
        exact ⟨List.all_eq_true.2 fun c hc => decide_eq_true (hascii c hc), hlength⟩
  · next hne =>
    rw [ofHex?_of_ofChars?_eq_none]
    · rfl
    · refine Option.eq_none_iff_forall_ne_some.2 fun c hc => ?_
      obtain ⟨hex, hs, _⟩ := sliceable_of_ofChars? hc
      exact hne hex hs

theorem eq_of_ofHex?_eq_error {s : String} {e : InvalidColor} (h : ofHex? s = .error e) :
    e = ⟨s⟩ := by
  rw [ofHex?] at h
  split at h
  · cases h
  · exact (Except.error.inj h).symm

/-! ### The contract of reading -/

/-- **A color reads from what it is written as, and from hardly anything else.** What reads as a
color is, with a zero for every plus sign that leads a channel, what the color is written as. So a
text is read as the notation has it unless it has such plus signs and is read all the same. Whatever
is no color is an error that carries the text. No slice that is cut out on the way is a fault. -/
theorem reads_as_written (s : String) :
    (∀ c, ofHex? s = .ok c ↔ c.IsWrittenAs (unsigned s)) ∧
    ((∀ c, ofHex? s = .ok c ↔ c.IsWrittenAs s) ↔ unsigned s = s ∨ ∃ e, ofHex? s = .error e) ∧
    (∀ e, ofHex? s = .error e → e = ⟨s⟩) ∧
    ofSlices? s = some (ofHex? s) := by
  refine ⟨fun c => ofHex?_eq_ok_iff, ⟨fun h => ?_, fun h c => ?_⟩,
    fun e => eq_of_ofHex?_eq_error, ofSlices?_eq s⟩
  · cases hread : ofHex? s with
    | ok c => exact Or.inl (unsigned_eq_self ((h c).1 hread).plus_notMem)
    | error e => exact Or.inr ⟨e, rfl⟩
  · rcases h with h | ⟨e, he⟩
    · rw [ofHex?_eq_ok_iff, h]
    · refine iff_of_false (fun hread => ?_) fun hwritten => ?_
      · rw [he] at hread
        cases hread
      · -- What has no plus sign and is written for a color is read.
        have hread : ofHex? s = .ok c := by
          rw [ofHex?_eq_ok_iff, unsigned_eq_self hwritten.plus_notMem]
          exact hwritten
        rw [he] at hread
        cases hread

/-- A plus sign is read in the place of a digit, which the notation does not have. -/
theorem ofHex?_plus_sign :
    ofHex? "#+f0000" = .ok (rgb 15 0 0) ∧ ¬(rgb 15 0 0).IsWrittenAs "#+f0000" :=
  ⟨ofHex?_eq_ok_iff_ofChars?.2 (by decide +kernel), fun h => h.plus_notMem (by decide +kernel)⟩

end Color

end TokenHighlight
