import Mathlib.Tactic.NormNum
import TokenHighlight.Json.Number

/-!
# Written numbers

A number is kept by its digits, so nothing is lost in writing it: sign, whole part, fraction and
exponent are read back from the characters as they were. What makes this hold is that each part ends
at a character that cannot belong to it, a point or an `e` or the end.

Natural numbers of 64 bits, which are all that records write, are read back as such. They are also
far from where double precision ends.

## Main results

* `Json.Number.ofChars?_chars` — every number is read back from its characters
* `Json.Number.natural?_natural`, `Json.Number.isFinite_natural` — natural numbers of 64 bits are
  read as what they are, and have a value in double precision
-/

namespace TokenHighlight

namespace Json.Number

/-! ### Digits -/

/-- The character of a digit. -/
def digitChar (d : Fin 10) : Char :=
  Nat.digitChar d.val

theorem digit?_digitChar (d : Fin 10) : digit? (digitChar d) = some d := by
  revert d
  decide

/-- A run of digits is split off whole if what follows it does not begin with a digit. -/
theorem takeDigits_append (ds : List (Fin 10)) {rest : List Char}
    (hrest : ∀ c ∈ rest.head?, digit? c = none) :
    takeDigits (ds.map digitChar ++ rest) = (ds, rest) := by
  induction ds with
  | nil =>
    cases rest with
    | nil => rfl
    | cons c rest => simp [takeDigits, hrest c rfl]
  | cons d ds ih => simp [takeDigits, digit?_digitChar, ih]

theorem digitsValue_append_singleton (ds : List (Fin 10)) (d : Fin 10) :
    digitsValue (ds ++ [d]) = 10 * digitsValue ds + d := by
  rw [digitsValue, List.foldl_append]
  rfl

/-- A run of digits is a whole part if it has just one, or does not begin with a zero. -/
theorem whole?_eq_some {ds : List (Fin 10)} (hne : ds ≠ [])
    (hzero : ds.head? = some 0 → ds = [0]) : whole? ds = some (digitsValue ds) := by
  match ds with
  | [d] => simp [whole?, digitsValue]
  | d :: e :: ds =>
    have hd : d ≠ 0 := by
      rintro rfl
      cases hzero rfl
    simp [whole?, hd]

/-- The characters of a natural number are digits, which have its value and no zero in front. -/
theorem exists_digits (n : Nat) : ∃ ds : List (Fin 10), Text.decimal n = ds.map digitChar ∧
    ds ≠ [] ∧ digitsValue ds = n ∧ (ds.head? = some 0 → ds = [0]) := by
  induction n using Nat.strongRecOn with
  | ind n ih =>
    by_cases h : n < 10
    · refine ⟨[⟨n, h⟩], ?_, by simp, by simp [digitsValue], by simp⟩
      simp [Text.decimal, Nat.toDigits_of_lt_base h, digitChar]
    · obtain ⟨ds, hchars, hne, hvalue, hzero⟩ := ih (n / 10) (by omega)
      obtain ⟨d, ds, rfl⟩ := List.exists_cons_of_ne_nil hne
      have hlast : n % 10 < 10 := Nat.mod_lt n (by decide)
      refine ⟨d :: ds ++ [⟨n % 10, hlast⟩], ?_, by simp, ?_, fun hhead => ?_⟩
      · rw [Text.decimal, Nat.toDigits_of_base_le (by decide) (by omega), ← Text.decimal, hchars,
          List.map_append]
        rfl
      · rw [digitsValue_append_singleton, hvalue]
        exact Nat.div_add_mod n 10
      · -- A zero in front would be that of the digits before the last, whose number is not zero.
        have hhead : (d :: ds).head? = some 0 := hhead
        rw [hzero hhead] at hvalue
        have hpos : n / 10 = 0 := hvalue.symm
        omega

/-! ### Reading what was written -/

/-- The characters of a fraction with its point. -/
def fractionChars : List (Fin 10) → List Char
  | [] => []
  | ds => '.' :: ds.map digitChar

/-- The characters of an exponent with its `e`. -/
def exponentChars : Option Int → List Char
  | none => []
  | some e => 'e' :: (if e < 0 then ['-'] else []) ++ Text.decimal e.natAbs

theorem chars_eq (n : Number) : n.chars =
    (if n.negative then ['-'] else []) ++
      (Text.decimal n.whole ++ (fractionChars n.fraction ++ exponentChars n.exponent)) := by
  obtain ⟨negative, whole, fraction, exponent⟩ := n
  cases fraction <;> cases exponent <;> simp [chars, fractionChars, exponentChars, digitChar]

theorem digit?_head_exponentChars (e : Option Int) :
    ∀ c ∈ (exponentChars e).head?, digit? c = none := by
  cases e with
  | none => simp [exponentChars]
  | some e => simpa [exponentChars] using (by decide : digit? 'e' = none)

theorem exponent?_exponentChars (e : Option Int) : exponent? (exponentChars e) = some e := by
  cases e with
  | none => rfl
  | some e =>
    obtain ⟨ds, hchars, hne, hvalue, -⟩ := exists_digits e.natAbs
    obtain ⟨d, ds, rfl⟩ := List.exists_cons_of_ne_nil hne
    have hend : ∀ c ∈ ([] : List Char).head?, digit? c = none := by simp
    have htake : takeDigits (digitChar d :: ds.map digitChar) = (d :: ds, []) := by
      simpa using takeDigits_append (d :: ds) hend
    have hminus : digitChar d ≠ '-' := (by decide : ∀ d, digitChar d ≠ '-') d
    have hplus : digitChar d ≠ '+' := (by decide : ∀ d, digitChar d ≠ '+') d
    by_cases hneg : e < 0
    · have he : -|e| = e := by rw [abs_of_neg hneg, neg_neg]
      simp [exponentChars, exponent?, hneg, hchars, htake, hvalue, he]
    · have he : |e| = e := abs_of_nonneg (not_lt.1 hneg)
      simp [exponentChars, exponent?, hneg, hchars, htake, hvalue, he, hminus, hplus]

theorem fraction?_append (ds : List (Fin 10)) (e : Option Int) :
    fraction? (fractionChars ds ++ exponentChars e) = some (ds, exponentChars e) := by
  cases ds with
  | nil => cases e <;> simp [fractionChars, exponentChars, fraction?]
  | cons d ds =>
    have htake := takeDigits_append (d :: ds) (digit?_head_exponentChars e)
    rw [List.map_cons, List.cons_append] at htake
    simp [fractionChars, fraction?, htake]

theorem digit?_head_fractionChars (ds : List (Fin 10)) (e : Option Int) :
    ∀ c ∈ (fractionChars ds ++ exponentChars e).head?, digit? c = none := by
  cases ds with
  | nil => exact digit?_head_exponentChars e
  | cons d ds => simpa [fractionChars] using (by decide : digit? '.' = none)

/-- **Every number is read back from its characters.** -/
theorem ofChars?_chars (n : Number) : ofChars? n.chars = some n := by
  obtain ⟨negative, whole, fraction, exponent⟩ := n
  obtain ⟨ds, hchars, hne, hvalue, hzero⟩ := exists_digits whole
  have htake := takeDigits_append ds (digit?_head_fractionChars fraction exponent)
  have hwhole : whole? ds = some whole := hvalue ▸ whole?_eq_some hne hzero
  rw [chars_eq]
  cases negative with
  | true =>
    simp [ofChars?, hchars, htake, hwhole, fraction?_append, exponent?_exponentChars]
  | false =>
    obtain ⟨d, ds, rfl⟩ := List.exists_cons_of_ne_nil hne
    have hminus : digitChar d ≠ '-' := (by decide : ∀ d, digitChar d ≠ '-') d
    rw [List.map_cons, List.cons_append] at htake
    simp [ofChars?, hchars, hminus, htake, hwhole, fraction?_append, exponent?_exponentChars]

/-! ### Natural numbers of 64 bits -/

theorem natural?_natural (n : UInt64) : natural? { whole := n.toNat } = some n := by
  have hn : n.toNat < UInt64.size := n.toNat_lt
  simp [natural?, isWhole, hn]

theorem le_foldl_digits (ds : List Nat) (n : Nat) : n ≤ ds.foldl (fun n d => 10 * n + d) n := by
  induction ds generalizing n with
  | nil => exact Nat.le_refl n
  | cons d ds ih => exact Nat.le_trans (by omega) (ih (10 * n + d))

/-- Digits that stay within 64 bits are all absorbed. -/
theorem absorb_eq {m : Nat} {ds : List Nat}
    (h : ds.foldl (fun n d => 10 * n + d) m < UInt64.size) (dropped e : Int) :
    absorb 0 dropped (m, e) ds = (ds.foldl (fun n d => 10 * n + d) m, e) := by
  induction ds generalizing m with
  | nil => rfl
  | cons d ds ih =>
    have hd : 10 * m + d < UInt64.size := Nat.lt_of_le_of_lt (le_foldl_digits ds _) h
    rw [absorb, if_pos hd, Int.add_zero]
    exact ih h

theorem scientific_natural {n : Nat} (hn : n < UInt64.size) :
    scientific { whole := n } = (n, 0) := by
  obtain ⟨ds, hchars, -, hvalue, -⟩ := exists_digits n
  have hdigits : (Nat.toDigits 10 n).map (fun c => c.toNat - '0'.toNat) = ds.map Fin.val := by
    rw [show Nat.toDigits 10 n = ds.map digitChar from hchars, List.map_map]
    exact congrArg (ds.map ·) (funext (by decide))
  have hfold : (ds.map Fin.val).foldl (fun n d => 10 * n + d) 0 = n := by
    rw [List.foldl_map]
    exact hvalue
  have hsmall : (ds.map Fin.val).foldl (fun n d => 10 * n + d) 0 < UInt64.size := by rwa [hfold]
  have habsorb := absorb_eq hsmall 1 0
  rw [hfold] at habsorb
  simp only [scientific, hdigits, habsorb, List.map_nil, absorb]
  rfl

/-- Rounding at most doubles a number: it goes up by less than the leading bit. -/
theorem round_le (n : Nat) : DoublePrecision.round n ≤ 2 * n := by
  simp only [DoublePrecision.round]
  split
  · omega
  · next hn =>
    have hpos : n ≠ 0 := by
      rintro rfl
      exact hn (Nat.pow_pos (by decide))
    have hunit : Nat.pow 2 (n.log2 - 52) ≤ n :=
      Nat.le_trans (Nat.pow_le_pow_right (by decide) (Nat.sub_le _ _)) (Nat.log2_self_le hpos)
    have hmul : n / Nat.pow 2 (n.log2 - 52) * Nat.pow 2 (n.log2 - 52) ≤ n := Nat.div_mul_le_self _ _
    split
    · omega
    · rw [Nat.succ_mul]
      omega

/-- Natural numbers of 64 bits are far from where double precision ends. -/
theorem isFinite_natural {n : Nat} (hn : n < UInt64.size) : isFinite { whole := n } = true := by
  have hround : DoublePrecision.round n < 2 ^ 65 := Nat.lt_of_le_of_lt (round_le n) <| by
    have : UInt64.size = 2 ^ 64 := rfl
    omega
  have hone : DoublePrecision.round (Nat.pow 10 (0 : Int).toNat) = 1 := by decide
  have hend : 2 ^ 65 ≤ DoublePrecision.infinityThreshold := by decide +kernel
  rw [isFinite, scientific_natural hn]
  dsimp only
  rw [hone]
  split
  · rfl
  · simp
    omega

end Json.Number

end TokenHighlight
