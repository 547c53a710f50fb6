import TokenHighlight.Json.Lexeme
import TokenHighlight.Json.Writer
import TokenHighlight.Proofs.Json.Number

/-!
# Lexemes of written values

A value is written without blanks, so its text is that of its lexemes, one behind the other. Marks
and strings say themselves where they end. Words and numbers do not: they go on for as long as there
are letters or characters of numbers. What is written behind a value is a comma, a closing mark or
nothing, and these are neither.

The lemmas say how the scan goes on from *between* lexemes, with whatever was found before and
whatever follows, so that they can be put one behind the other as the lexemes are.

## Main definitions

* `Json.lexemes` — the lexemes of a value
* `Json.EndsLexeme` — what may follow a word or a number
* `Json.pieceOf` — what is left of a character between quotes

## Main results

* `Json.lexemesFrom?_stringChars`, `Json.lexemesFrom?_numberChars` — reading one lexeme
* `Json.lexemes?_chars` — a text is cut into the lexemes of the value it was written for
-/

namespace TokenHighlight

namespace Json

/-! ### The lexemes of a value -/

mutual

/-- The lexemes of a value. -/
def lexemes : Json → List Lexeme
  | .null => [.null]
  | .bool b => [.bool b]
  | .number n => [.number n]
  | .string s => [.string s]
  | .array [] => [.openBracket, .closeBracket]
  | .array (j :: rest) => .openBracket :: j.lexemes ++ elementLexemes rest
  | .object [] => [.openBrace, .closeBrace]
  | .object ((key, j) :: rest) =>
    .openBrace :: .string key :: .colon :: j.lexemes ++ memberLexemes rest

/-- The lexemes of an array behind its first element. -/
def elementLexemes : List Json → List Lexeme
  | [] => [.closeBracket]
  | j :: rest => .comma :: j.lexemes ++ elementLexemes rest

/-- The lexemes of an object behind its first member. -/
def memberLexemes : List (Option String × Json) → List Lexeme
  | [] => [.closeBrace]
  | (key, j) :: rest => .comma :: .string key :: .colon :: j.lexemes ++ memberLexemes rest

end

variable {done : List Lexeme} {rest : List Char}

/-! ### Words and numbers -/

/-- A text in front of which a word or a number ends. -/
def EndsLexeme (rest : List Char) : Prop :=
  ∀ c ∈ rest.head?, isLetter c = false ∧ isNumberChar c = false

theorem endsLexeme_nil : EndsLexeme [] := by
  simp [EndsLexeme]

theorem endsLexeme_elementChars (js : List Json) (rest : List Char) :
    EndsLexeme (elementChars js ++ rest) := by
  cases js <;> simp [EndsLexeme, elementChars] <;> decide

theorem endsLexeme_memberChars (ms : List (Option String × Json)) (rest : List Char) :
    EndsLexeme (memberChars ms ++ rest) := by
  cases ms <;> simp [EndsLexeme, memberChars] <;> decide

/-- Characters that only add to what is collected. -/
theorem lexemesFrom?_collect {collect : List Char → Scan} {p : Char → Bool}
    (hscan : ∀ chars c, p c = true → scan? (collect chars) c = some ([], collect (c :: chars)))
    {cs : List Char} (hcs : ∀ c ∈ cs, p c = true) (chars : List Char) :
    lexemesFrom? done (collect chars) (cs ++ rest) =
      lexemesFrom? done (collect (cs.reverse ++ chars)) rest := by
  induction cs generalizing chars with
  | nil => rfl
  | cons c cs ih =>
    obtain ⟨hc, hcs⟩ := List.forall_mem_cons.1 hcs
    rw [List.cons_append, lexemesFrom?, hscan chars c hc]
    simp [ih hcs]

/-- What has been collected is a lexeme, and the next character begins another. -/
theorem lexemesFrom?_finish {state : Scan} {l : Lexeme} (hfinish : finish? state = some [l])
    (hscan : ∀ c ∈ rest.head?,
      scan? state c = (start? c).map fun found => (l :: found.1, found.2)) :
    lexemesFrom? done state rest = lexemesFrom? (l :: done) .between rest := by
  cases rest with
  | nil =>
    rw [lexemesFrom?, lexemesFrom?, hfinish]
    simp [finish?]
  | cons c rest =>
    rw [lexemesFrom?, lexemesFrom?, hscan c rfl, scan?]
    cases start? c <;> simp

theorem lexemesFrom?_number {chars : List Char} {l : Lexeme} (h : number? chars = some l)
    (hrest : EndsLexeme rest) :
    lexemesFrom? done (.number chars) rest = lexemesFrom? (l :: done) .between rest := by
  refine lexemesFrom?_finish (by rw [finish?, h]; rfl) fun c hc => ?_
  rw [scan?, (hrest c hc).2, h]
  cases start? c <;> rfl

theorem lexemesFrom?_word {letters : List Char} {l : Lexeme} (h : word? letters = some l)
    (hrest : EndsLexeme rest) :
    lexemesFrom? done (.word letters) rest = lexemesFrom? (l :: done) .between rest := by
  refine lexemesFrom?_finish (by rw [finish?, h]; rfl) fun c hc => ?_
  rw [scan?, (hrest c hc).1, h]
  cases start? c <;> rfl

/-- A word is one lexeme. -/
theorem lexemesFrom?_wordChars {c : Char} {cs : List Char} {l : Lexeme}
    (hword : word? (c :: cs).reverse = some l) (hc : start? c = some ([], .word [c]))
    (hcs : cs.all isLetter = true) (hrest : EndsLexeme rest) :
    lexemesFrom? done .between (c :: cs ++ rest) = lexemesFrom? (l :: done) .between rest := by
  rw [List.cons_append, lexemesFrom?]
  simp only [scan?, hc, List.reverse_nil, List.nil_append]
  rw [lexemesFrom?_collect (fun _ _ h => by rw [scan?, if_pos h]) (List.all_eq_true.1 hcs),
    ← List.reverse_cons]
  exact lexemesFrom?_word hword hrest

theorem isNumberChar_of_mem_decimal {n : Nat} : ∀ c ∈ Text.decimal n, isNumberChar c = true := by
  obtain ⟨ds, hchars, -⟩ := Number.exists_digits n
  rw [hchars, List.forall_mem_map]
  exact fun d _ => (by decide : ∀ d, isNumberChar (Number.digitChar d) = true) d

theorem isNumberChar_of_mem_fractionChars (ds : List (Fin 10)) :
    ∀ c ∈ Number.fractionChars ds, isNumberChar c = true := by
  cases ds with
  | nil => exact List.forall_mem_nil _
  | cons d ds =>
    refine List.forall_mem_cons.2 ⟨rfl, List.forall_mem_map.2 fun d _ => ?_⟩
    exact (by decide : ∀ d, isNumberChar (Number.digitChar d) = true) d

theorem isNumberChar_of_mem_exponentChars (e : Option Int) :
    ∀ c ∈ Number.exponentChars e, isNumberChar c = true := by
  cases e with
  | none => exact List.forall_mem_nil _
  | some e =>
    refine List.forall_mem_append.2 ⟨?_, isNumberChar_of_mem_decimal⟩
    split <;> exact List.all_eq_true.1 rfl

/-- A number begins with a sign or a digit, and has only characters of numbers in it. -/
theorem exists_numberChars (n : Number) : ∃ c cs, n.chars = c :: cs ∧
    start? c = some ([], .number [c]) ∧ ∀ x ∈ cs, isNumberChar x = true := by
  have hrest : ∀ c ∈ Text.decimal n.whole ++
      (Number.fractionChars n.fraction ++ Number.exponentChars n.exponent),
      isNumberChar c = true :=
    List.forall_mem_append.2 ⟨isNumberChar_of_mem_decimal, List.forall_mem_append.2
      ⟨isNumberChar_of_mem_fractionChars _, isNumberChar_of_mem_exponentChars _⟩⟩
  rw [Number.chars_eq]
  cases n.negative with
  | true => exact ⟨'-', _, rfl, rfl, hrest⟩
  | false =>
    obtain ⟨ds, hchars, hne, -⟩ := Number.exists_digits n.whole
    obtain ⟨d, ds, rfl⟩ := List.exists_cons_of_ne_nil hne
    have hstart : start? (Number.digitChar d) = some ([], .number [Number.digitChar d]) :=
      (by decide : ∀ d, start? (Number.digitChar d) = some ([], .number [Number.digitChar d])) d
    rw [hchars] at hrest ⊢
    exact ⟨Number.digitChar d, _, rfl, hstart, (List.forall_mem_cons.1 hrest).2⟩

/-- A number is one lexeme. -/
theorem lexemesFrom?_numberChars (n : Number) (hrest : EndsLexeme rest) :
    lexemesFrom? done .between (n.chars ++ rest) =
      lexemesFrom? (.number n :: done) .between rest := by
  obtain ⟨c, cs, hchars, hstart, hnumber⟩ := exists_numberChars n
  have hread : number? (c :: cs).reverse = some (.number n) := by
    rw [number?, List.reverse_reverse, ← hchars, Number.ofChars?_chars]
    rfl
  rw [hchars, List.cons_append, lexemesFrom?]
  simp only [scan?, hstart, List.reverse_nil, List.nil_append]
  rw [lexemesFrom?_collect (fun _ _ h => by rw [scan?, if_pos h]) hnumber, ← List.reverse_cons]
  exact lexemesFrom?_number hread hrest

/-! ### Strings -/

/-- What is left of a character when it has been read between quotes. Only a control character that
has no letter is spelled by its number. -/
def pieceOf (c : Char) : Piece :=
  if c.toNat < 0x20 ∧ c ∉ ['\x08', '\x0c', '\n', '\r', '\t'] then .unit c.toNat else .char c

theorem join?_map_pieceOf (cs : List Char) : Piece.join? (cs.map pieceOf) = some cs := by
  induction cs with
  | nil => rfl
  | cons c cs ih =>
    rw [List.map_cons, pieceOf]
    split
    · next h =>
      have hlow : ¬ (0xd800 ≤ c.toNat ∧ c.toNat < 0xdc00) := by omega
      have hhigh : ¬ (0xdc00 ≤ c.toNat ∧ c.toNat < 0xe000) := by omega
      unfold Piece.join?
      rw [if_neg hlow, if_neg hhigh, ih, Option.map_some, Char.ofNat_toNat]
    · rw [Piece.join?, ih, Option.map_some]

/-- A control character that has no letter, as it stands between quotes. -/
theorem lexemesFrom?_unit (pieces : List Piece) {c : Char} (h : c.toNat < 0x20) :
    lexemesFrom? done (.string pieces)
        (['\\', 'u', '0', '0'] ++ Text.hexByte (.ofNat c.toNat) ++ rest) =
      lexemesFrom? done (.string (.unit c.toNat :: pieces)) rest := by
  have hbyte : (UInt8.ofNat c.toNat).toNat = c.toNat := by
    rw [UInt8.toNat_ofNat', Nat.mod_eq_of_lt (by omega)]
  have hzero : Text.hexValue? '0' = some 0 := rfl
  have hhigh := Text.hexValue?_digitChar (show c.toNat / 16 < 16 by omega)
  have hlast := Text.hexValue?_digitChar (show c.toNat % 16 < 16 by omega)
  have hvalue : 16 * (c.toNat / 16) + c.toNat % 16 = c.toNat := Nat.div_add_mod _ _
  simp [Text.hexByte, hbyte, lexemesFrom?, scan?, inString?, hzero, hhigh, hlast, hvalue]

/-- One character of a string, with its escape. -/
theorem lexemesFrom?_stringChar (pieces : List Piece) (c : Char) :
    lexemesFrom? done (.string pieces) (stringChar c ++ rest) =
      lexemesFrom? done (.string (pieceOf c :: pieces)) rest := by
  by_cases hletter : c ∈ ['"', '\\', '\x08', '\x0c', '\n', '\r', '\t']
  · simp only [List.mem_cons, List.not_mem_nil, or_false] at hletter
    rcases hletter with rfl | rfl | rfl | rfl | rfl | rfl | rfl <;> rfl
  · simp only [List.mem_cons, List.not_mem_nil, or_false, not_or] at hletter
    obtain ⟨hquote, hback, hb, hf, hn, hr, ht⟩ := hletter
    rw [stringChar, if_neg hquote, if_neg hback, if_neg hb, if_neg hf, if_neg hn, if_neg hr,
      if_neg ht]
    by_cases hlow : c.toNat < 0x20
    · have hpiece : pieceOf c = .unit c.toNat := by simp [pieceOf, hlow, hb, hf, hn, hr, ht]
      rw [if_pos hlow, hpiece]
      exact lexemesFrom?_unit pieces hlow
    · have hpiece : pieceOf c = .char c := by simp [pieceOf, hlow]
      rw [if_neg hlow, hpiece]
      simp [lexemesFrom?, scan?, inString?, hquote, hback, hlow]

theorem lexemesFrom?_flatMap_stringChar (cs : List Char) (pieces : List Piece) :
    lexemesFrom? done (.string pieces) (cs.flatMap stringChar ++ rest) =
      lexemesFrom? done (.string ((cs.map pieceOf).reverse ++ pieces)) rest := by
  induction cs generalizing pieces with
  | nil => rfl
  | cons c cs ih =>
    rw [List.flatMap_cons, List.append_assoc, lexemesFrom?_stringChar, ih, List.map_cons,
      List.reverse_cons, List.append_assoc]
    rfl

/-- A string is one lexeme, whatever follows. Half of a surrogate pair stands for one that has no
text, and is read as one. -/
theorem lexemesFrom?_stringChars (s : Option String) :
    lexemesFrom? done .between (stringChars s ++ rest) =
      lexemesFrom? (.string s :: done) .between rest := by
  cases s with
  | none =>
    have hchars : "\"\\ud800\"".toList = ['"', '\\', 'u', 'd', '8', '0', '0', '"'] := rfl
    rw [show stringChars none = "\"\\ud800\"".toList from rfl, hchars]
    rfl
  | some s =>
    have hopen : lexemesFrom? done .between ('"' :: (s.toList.flatMap stringChar ++ '"' :: rest)) =
        lexemesFrom? done (.string []) (s.toList.flatMap stringChar ++ '"' :: rest) := rfl
    rw [show stringChars (some s) = '"' :: s.toList.flatMap stringChar ++ ['"'] from rfl,
      List.cons_append, List.cons_append, List.append_assoc, List.singleton_append, hopen,
      lexemesFrom?_flatMap_stringChar, List.append_nil]
    simp [lexemesFrom?, scan?, inString?, join?_map_pieceOf]

/-! ### Values -/

/-- A mark is one lexeme, whatever follows. -/
theorem lexemesFrom?_mark {c : Char} {l : Lexeme} (h : start? c = some ([l], .between)) :
    lexemesFrom? done .between (c :: rest) = lexemesFrom? (l :: done) .between rest := by
  rw [lexemesFrom?]
  simp [scan?, h]

theorem chars_array_cons (j : Json) (js : List Json) :
    (Json.array (j :: js)).chars = '[' :: j.chars ++ elementChars js := rfl

theorem chars_object_cons (key : Option String) (j : Json) (ms : List (Option String × Json)) :
    (Json.object ((key, j) :: ms)).chars =
      '\x7b' :: stringChars key ++ ':' :: j.chars ++ memberChars ms := rfl

mutual

/-- **The text of a value is cut into its lexemes**, if what follows it begins one of its own. -/
theorem lexemesFrom?_chars (j : Json) (done : List Lexeme) (rest : List Char)
    (hrest : EndsLexeme rest) :
    lexemesFrom? done .between (j.chars ++ rest) =
      lexemesFrom? (j.lexemes.reverse ++ done) .between rest := by
  match j with
  | .null => exact lexemesFrom?_wordChars rfl rfl rfl hrest
  | .bool true => exact lexemesFrom?_wordChars rfl rfl rfl hrest
  | .bool false => exact lexemesFrom?_wordChars rfl rfl rfl hrest
  | .number n => exact lexemesFrom?_numberChars n hrest
  | .string s => exact lexemesFrom?_stringChars s
  | .array [] => rfl
  | .object [] => rfl
  | .array (j :: js) =>
    rw [chars_array_cons, lexemes]
    simp only [List.cons_append, List.append_assoc]
    rw [lexemesFrom?_mark rfl, lexemesFrom?_chars j _ _ (endsLexeme_elementChars js rest),
      lexemesFrom?_elementChars]
    simp
  | .object ((key, j) :: ms) =>
    rw [chars_object_cons, lexemes]
    simp only [List.cons_append, List.append_assoc]
    rw [lexemesFrom?_mark rfl, lexemesFrom?_stringChars, lexemesFrom?_mark rfl,
      lexemesFrom?_chars j _ _ (endsLexeme_memberChars ms rest), lexemesFrom?_memberChars]
    simp

theorem lexemesFrom?_elementChars (js : List Json) (done : List Lexeme) (rest : List Char) :
    lexemesFrom? done .between (elementChars js ++ rest) =
      lexemesFrom? ((elementLexemes js).reverse ++ done) .between rest := by
  match js with
  | [] => rfl
  | j :: js =>
    rw [elementChars, elementLexemes]
    simp only [List.cons_append, List.append_assoc]
    rw [lexemesFrom?_mark rfl, lexemesFrom?_chars j _ _ (endsLexeme_elementChars js rest),
      lexemesFrom?_elementChars]
    simp

theorem lexemesFrom?_memberChars (ms : List (Option String × Json)) (done : List Lexeme)
    (rest : List Char) : lexemesFrom? done .between (memberChars ms ++ rest) =
      lexemesFrom? ((memberLexemes ms).reverse ++ done) .between rest := by
  match ms with
  | [] => rfl
  | (key, j) :: ms =>
    rw [memberChars, memberLexemes]
    simp only [List.cons_append, List.append_assoc]
    rw [lexemesFrom?_mark rfl, lexemesFrom?_stringChars, lexemesFrom?_mark rfl,
      lexemesFrom?_chars j _ _ (endsLexeme_memberChars ms rest), lexemesFrom?_memberChars]
    simp

end

/-- **A text is cut into the lexemes of the value it was written for.** -/
theorem lexemes?_chars (j : Json) : lexemes? j.chars = some j.lexemes := by
  have h := lexemesFrom?_chars j [] [] endsLexeme_nil
  rw [List.append_nil, List.append_nil] at h
  rw [lexemes?, h]
  simp [lexemesFrom?, finish?]

end Json

end TokenHighlight
