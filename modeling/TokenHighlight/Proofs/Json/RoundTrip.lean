import TokenHighlight.Json.Reader
import TokenHighlight.Proofs.Json.Lexing

/-!
# Values are read back

Of the two halves of reading, the first cuts a text into the lexemes of the value it was written for
(`Json.lexemes?_chars`). This is the second: those lexemes spell the value.

What is open around a value does not matter to it. The lexemes of a value lead from where a value is
due to where it has been read, with the same arrays and objects around it. Elements and members that
follow are read one after the other into what is open.

Nothing is asked of the value: numbers keep their digits, members their order and repetitions, and a
string that has no text is still read as one.

## Main results

* `Json.ofLexemes?_lexemes` — the lexemes of a value spell it
* `Json.read?_compact` — every value is read back from its text
-/

namespace TokenHighlight

namespace Json

/-- Where a first element is due, all is as where any value is, unless the array ends there. -/
theorem parse?_firstElement (outer : List Open) {l : Lexeme} (hl : l ≠ .closeBracket) :
    parse? (.firstElement outer) l = parse? (.value (.array [] :: outer)) l := by
  cases l <;> first | rfl | exact absurd rfl hl

/-- No value begins with the end of an array. -/
theorem exists_lexemes_eq_cons (j : Json) : ∃ l ls, j.lexemes = l :: ls ∧ l ≠ .closeBracket := by
  match j with
  | .null | .bool _ | .number _ | .string _ | .array [] | .object [] =>
    exact ⟨_, _, by rw [lexemes], by simp⟩
  | .array (_ :: _) | .object ((_, _) :: _) => exact ⟨_, _, by rw [lexemes]; rfl, by simp⟩

theorem foldlM_firstElement (j : Json) (outer : List Open) (rest : List Lexeme) :
    (j.lexemes ++ rest).foldlM parse? (.firstElement outer) =
      (j.lexemes ++ rest).foldlM parse? (.value (.array [] :: outer)) := by
  obtain ⟨l, ls, hls, hl⟩ := exists_lexemes_eq_cons j
  rw [hls, List.cons_append, List.foldlM_cons, List.foldlM_cons, parse?_firstElement outer hl]

mutual

/-- The lexemes of a value lead to where it has been read. -/
theorem foldlM_lexemes (j : Json) (outer : List Open) (rest : List Lexeme) :
    (j.lexemes ++ rest).foldlM parse? (.value outer) = rest.foldlM parse? (.behind j outer) := by
  match j with
  | .null | .bool _ | .number _ | .string _ | .array [] | .object [] =>
    rw [lexemes]
    rfl
  | .array (j :: js) =>
    calc ((Json.array (j :: js)).lexemes ++ rest).foldlM parse? (.value outer)
        = (j.lexemes ++ (elementLexemes js ++ rest)).foldlM parse? (.firstElement outer) := by
          rw [lexemes, List.cons_append, List.cons_append, List.append_assoc]
          rfl
      _ = (elementLexemes js ++ rest).foldlM parse? (.behind j (.array [] :: outer)) := by
          rw [foldlM_firstElement, foldlM_lexemes j]
      _ = rest.foldlM parse? (.behind (.array (j :: js)) outer) := foldlM_elementLexemes js j [] _ _
  | .object ((key, j) :: ms) =>
    calc ((Json.object ((key, j) :: ms)).lexemes ++ rest).foldlM parse? (.value outer)
        = (j.lexemes ++ (memberLexemes ms ++ rest)).foldlM parse?
            (.value (.object [] key :: outer)) := by
          rw [lexemes, List.append_assoc]
          rfl
      _ = (memberLexemes ms ++ rest).foldlM parse? (.behind j (.object [] key :: outer)) := by
          rw [foldlM_lexemes j]
      _ = rest.foldlM parse? (.behind (.object ((key, j) :: ms)) outer) :=
          foldlM_memberLexemes ms j [] key _ _

/-- Elements behind a value go into the array with it. -/
theorem foldlM_elementLexemes (js : List Json) (j : Json) (before : List Json) (outer : List Open)
    (rest : List Lexeme) :
    (elementLexemes js ++ rest).foldlM parse? (.behind j (.array before :: outer)) =
      rest.foldlM parse? (.behind (.array (before.reverse ++ j :: js)) outer) := by
  match js with
  | [] =>
    rw [elementLexemes]
    simp [parse?]
  | k :: js =>
    calc (elementLexemes (k :: js) ++ rest).foldlM parse? (.behind j (.array before :: outer))
        = (k.lexemes ++ (elementLexemes js ++ rest)).foldlM parse?
            (.value (.array (j :: before) :: outer)) := by
          rw [elementLexemes, List.append_assoc]
          rfl
      _ = (elementLexemes js ++ rest).foldlM parse?
            (.behind k (.array (j :: before) :: outer)) := by
          rw [foldlM_lexemes k]
      _ = rest.foldlM parse? (.behind (.array (before.reverse ++ j :: k :: js)) outer) := by
          rw [foldlM_elementLexemes js, List.reverse_cons, List.append_assoc]
          rfl

/-- Members behind a value go into the object with it. -/
theorem foldlM_memberLexemes (ms : List (Option String × Json)) (j : Json)
    (before : List (Option String × Json)) (key : Option String) (outer : List Open)
    (rest : List Lexeme) :
    (memberLexemes ms ++ rest).foldlM parse? (.behind j (.object before key :: outer)) =
      rest.foldlM parse? (.behind (.object (before.reverse ++ (key, j) :: ms)) outer) := by
  match ms with
  | [] =>
    rw [memberLexemes]
    simp [parse?]
  | (next, k) :: ms =>
    calc (memberLexemes ((next, k) :: ms) ++ rest).foldlM parse?
          (.behind j (.object before key :: outer))
        = (k.lexemes ++ (memberLexemes ms ++ rest)).foldlM parse?
            (.value (.object ((key, j) :: before) next :: outer)) := by
          rw [memberLexemes, List.append_assoc]
          rfl
      _ = (memberLexemes ms ++ rest).foldlM parse?
            (.behind k (.object ((key, j) :: before) next :: outer)) := by
          rw [foldlM_lexemes k]
      _ = rest.foldlM parse?
            (.behind (.object (before.reverse ++ (key, j) :: (next, k) :: ms)) outer) := by
          rw [foldlM_memberLexemes ms, List.reverse_cons, List.append_assoc]
          rfl

end

/-- **The lexemes of a value spell it.** -/
theorem ofLexemes?_lexemes (j : Json) : ofLexemes? j.lexemes = some j := by
  have h := foldlM_lexemes j [] []
  rw [List.append_nil] at h
  rw [ofLexemes?, h]
  rfl

/-- **Every value is read back from its text.** -/
theorem read?_compact (j : Json) : read? j.compact = some j := by
  rw [read?, compact, String.toList_ofList, lexemes?_chars]
  exact ofLexemes?_lexemes j

end Json

end TokenHighlight
