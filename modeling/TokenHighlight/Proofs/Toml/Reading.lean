import Mathlib.Data.List.Nodup
import TokenHighlight.Toml.Document

/-!
# Reading plain documents

Of all that a document may hold, this is what is needed to write one: keys of one word, truth
values, strings without escapes, and headers of one word. Each is read with whatever follows it on
the next lines, so that lines can be put one behind the other.

The reader of lines is given a number of steps, and takes one for each line and each empty line.
`Toml.Reads` says what the lines of a text are without counting: the length of the text is always
enough.

## Main definitions

* `Toml.IsWord` — keys that need no quotes
* `Toml.Reads` — what the lines of a text are
* `Toml.pairLines` — the lines for the entries of a table

## Main results

* `Toml.value?_string`, `Toml.value?_bool` — values at the end of a line
* `Toml.Reads.pair`, `Toml.Reads.header` — reading one line
* `Toml.Reads.lines?_eq`, `Toml.Reads.read?_eq` — a text has the lines that are read from it
* `Toml.fill?_ofEntry`, `Toml.assemble?_header` — entries under different keys make up a table
-/

namespace TokenHighlight

namespace Toml

variable {rest : List Char}

/-! ### Keys -/

/-- A key that needs no quotes. -/
def IsWord (key : List Char) : Prop :=
  key ≠ [] ∧ key.all isKeyChar = true

theorem IsWord.exists_cons {key : List Char} (h : IsWord key) :
    ∃ c cs, key = c :: cs ∧ isKeyChar c = true := by
  obtain ⟨c, cs, rfl⟩ := List.exists_cons_of_ne_nil h.1
  exact ⟨c, cs, rfl, List.all_eq_true.1 h.2 c List.mem_cons_self⟩

theorem ne_of_isKeyChar {c d : Char} (hc : isKeyChar c = true) (hd : isKeyChar d = false) :
    c ≠ d := by
  rintro rfl
  rw [hc] at hd
  cases hd

theorem isBlank_of_isKeyChar {c : Char} (hc : isKeyChar c = true) : isBlank c = false := by
  have hspace : c ≠ ' ' := ne_of_isKeyChar hc (by decide)
  have htab : c ≠ '\t' := ne_of_isKeyChar hc (by decide)
  simp [isBlank, hspace, htab]

theorem skipBlanks_cons {c : Char} (hc : isBlank c = false) (cs : List Char) :
    skipBlanks (c :: cs) = c :: cs := by
  simp [skipBlanks, hc]

theorem key?_append {key : List Char} (hkey : IsWord key) {d : Char} (hd : isKeyChar d = false) :
    key? (key ++ d :: rest) = some (String.ofList key, d :: rest) := by
  have hchars : ∀ c ∈ key, isKeyChar c = true := List.all_eq_true.1 hkey.2
  have htake : (key ++ d :: rest).takeWhile isKeyChar = key := by
    rw [List.takeWhile_append_of_pos hchars]
    simp [hd]
  have hdrop : (key ++ d :: rest).dropWhile isKeyChar = d :: rest := by
    rw [List.dropWhile_append_of_pos hchars]
    simp [hd]
  obtain ⟨c, cs, rfl, hc⟩ := hkey.exists_cons
  have hquote : ¬ (c = '"' ∨ c = '\'') :=
    not_or.2 ⟨ne_of_isKeyChar hc (by decide), ne_of_isKeyChar hc (by decide)⟩
  rw [List.cons_append] at htake hdrop ⊢
  rw [key?]
  simp only [if_neg hquote, if_pos hc, htake, hdrop]

/-- A key of one word, with what stands behind the blanks that may follow it. -/
theorem dottedKey?_append {key : List Char} (hkey : IsWord key) {c d : Char} {behind : List Char}
    (hd : isKeyChar d = false) (hskip : skipBlanks (d :: rest) = c :: behind) (hdot : c ≠ '.') :
    dottedKey? (key ++ d :: rest) = some (([], String.ofList key), c :: behind) := by
  have hstart : skipBlanks (key ++ d :: rest) = key ++ d :: rest := by
    obtain ⟨k, ks, rfl, hk⟩ := hkey.exists_cons
    exact skipBlanks_cons (isBlank_of_isKeyChar hk) _
  rw [dottedKey?, maxDepth, keyPath?, hstart, key?_append hkey hd]
  simp only [Option.bind_eq_bind, Option.bind_some, hskip]
  split
  · next h =>
    cases h
    exact absurd rfl hdot
  · rfl

/-! ### Values -/

/-- A character that stands for itself between double quotes. -/
def IsPlain (c : Char) : Prop :=
  isPrintable c = true ∧ c ≠ '"' ∧ c ≠ '\\'

theorem stringFrom?_append {cs : List Char} (hcs : ∀ c ∈ cs, IsPlain c) (text : List Char) :
    stringFrom? (lineForm '"') (.text 0) text (cs ++ '"' :: rest) =
      some (String.ofList (text.reverse ++ cs), rest) := by
  induction cs generalizing text with
  | nil => simp [stringFrom?, scan?, lineForm]
  | cons c cs ih =>
    obtain ⟨⟨hprint, hquote, hback⟩, hcs⟩ := List.forall_mem_cons.1 hcs
    have hscan : scan? (lineForm '"') (.text 0) text c = some (.more (.text 0) (c :: text)) := by
      simp [scan?, lineForm, scanText?, hprint, hquote, hback]
    rw [List.cons_append, stringFrom?, hscan]
    simp [ih hcs]

/-- A text between double quotes. The empty one is left out, since its quotes might be the first two
of three. -/
theorem value?_string {cs : List Char} (hne : cs ≠ []) (hcs : ∀ c ∈ cs, IsPlain c) :
    value? ('"' :: (cs ++ '"' :: rest)) = some (.string (String.ofList cs), rest) := by
  have hread : stringFrom? (lineForm '"') (.text 0) [] (cs ++ '"' :: rest) =
      some (String.ofList cs, rest) := stringFrom?_append hcs []
  obtain ⟨c, cs, rfl⟩ := List.exists_cons_of_ne_nil hne
  have hc : c ≠ '"' := (hcs c List.mem_cons_self).2.1
  obtain ⟨d, ds, hds⟩ : ∃ d ds, cs ++ '"' :: rest = d :: ds :=
    List.exists_cons_of_ne_nil (by simp)
  rw [List.cons_append, hds] at hread ⊢
  simp [value?, valueWithin?, string?, hc, lineString?, hread]

/-- A truth value at the end of a line. -/
theorem value?_bool (b : Bool) :
    value? ((if b then "true" else "false").toList ++ '\n' :: rest) =
      some (.bool b, '\n' :: rest) := by
  cases b <;> rfl

/-! ### Lines -/

/-- What the lines of a text are. Each line is read with all that follows it. -/
inductive Reads : List Char → List Line → Prop
  | nil : Reads [] []
  | empty {cs : List Char} {ls : List Line} (h : Reads cs ls) : Reads ('\n' :: cs) ls
  | line {c : Char} {cs rest : List Char} {l : Line} {ls : List Line}
    (hstart : c ∉ [' ', '\t', '#', '\n', '\r']) (hline : line? (c :: cs) = some (l, rest))
    (hlength : rest.length ≤ cs.length) (h : Reads rest ls) : Reads (c :: cs) (l :: ls)

/-- A line that has something in it does not end where it starts. -/
theorem lineEnd?_eq_none {c : Char} (hc : c ∉ [' ', '\t', '#', '\n', '\r']) (cs : List Char) :
    skipBlanks (c :: cs) = c :: cs ∧ lineEnd? (c :: cs) = none := by
  simp only [List.mem_cons, List.not_mem_nil, or_false, not_or] at hc
  obtain ⟨hspace, htab, hhash, hlf, hcr⟩ := hc
  have hskip : skipBlanks (c :: cs) = c :: cs :=
    skipBlanks_cons (by simp [isBlank, hspace, htab]) cs
  refine ⟨hskip, ?_⟩
  simp [lineEnd?, hskip, skipComment, newline?, hhash, hlf, hcr]

theorem Reads.linesWithin?_eq {cs : List Char} {ls : List Line} (h : Reads cs ls) {steps : Nat}
    (hsteps : cs.length ≤ steps) (done : List Line) :
    linesWithin? steps done cs = some (done.reverse ++ ls) := by
  induction h generalizing steps done with
  | nil => cases steps <;> simp [linesWithin?, skipBlanks]
  | @empty cs ls h ih =>
    obtain ⟨steps, rfl⟩ := Nat.exists_eq_add_of_lt (Nat.lt_of_succ_le hsteps)
    have hrest : cs.length ≤ cs.length + steps := Nat.le_add_right _ _
    rw [linesWithin?, skipBlanks_cons (by decide)]
    exact ih hrest done
  | @line c cs rest l ls hstart hline hlength h ih =>
    obtain ⟨steps, rfl⟩ := Nat.exists_eq_add_of_lt (Nat.lt_of_succ_le hsteps)
    have hrest : rest.length ≤ cs.length + steps := Nat.le_add_right_of_le hlength
    obtain ⟨hskip, hend⟩ := lineEnd?_eq_none hstart cs
    rw [linesWithin?, hskip]
    simp only [hend, hline, ih hrest, List.reverse_cons, List.append_assoc, List.singleton_append]

/-- **A text has the lines that are read from it.** -/
theorem Reads.lines?_eq {cs : List Char} {ls : List Line} (h : Reads cs ls) :
    lines? cs = some ls :=
  h.linesWithin?_eq (Nat.le_refl _) []

theorem line?_eq_pair? {c : Char} (hc : c ≠ '[') (cs : List Char) :
    line? (c :: cs) = pair? (c :: cs) := by
  unfold line?
  split
  · next h => exact absurd (List.cons.inj h).1 hc
  · next h => exact absurd (List.cons.inj h).1 hc
  · rfl

theorem line?_eq_header? {c : Char} (hc : c ≠ '[') (cs : List Char) :
    line? ('[' :: c :: cs) = header? false (c :: cs) := by
  unfold line?
  split
  · next h => exact absurd (List.cons.inj (List.cons.inj h).2).1 hc
  · next h => rw [(List.cons.inj h).2]
  · next h => exact absurd rfl (h _)

/-- The line of a key and its value. -/
theorem Reads.pair {key text : List Char} {item : Item} {ls : List Line} (hkey : IsWord key)
    (hstart : skipBlanks text = text) (hvalue : value? text = some (item, '\n' :: rest))
    (hlength : rest.length ≤ text.length) (h : Reads rest ls) :
    Reads (key ++ ' ' :: '=' :: ' ' :: text) (.pair ⟨[], String.ofList key, item⟩ :: ls) := by
  have hdotted : dottedKey? (key ++ ' ' :: '=' :: ' ' :: text) =
      some (([], String.ofList key), '=' :: ' ' :: text) :=
    dottedKey?_append hkey (by decide) rfl (by decide)
  have hskip : skipBlanks (' ' :: text) = text := by
    rwa [skipBlanks, List.dropWhile_cons_of_pos (by decide)]
  have hpair : pair? (key ++ ' ' :: '=' :: ' ' :: text) =
      some (.pair ⟨[], String.ofList key, item⟩, rest) := by
    rw [pair?, hdotted]
    simp only [Option.bind_eq_bind, Option.bind_some, hskip, hvalue]
    rfl
  obtain ⟨c, cs, rfl, hc⟩ := hkey.exists_cons
  have hstart : c ∉ [' ', '\t', '#', '\n', '\r'] := fun hmem => by
    have hother : [' ', '\t', '#', '\n', '\r'].all (fun d => !isKeyChar d) = true := rfl
    have hc' := List.all_eq_true.1 hother c hmem
    rw [hc] at hc'
    cases hc'
  refine .line hstart ((line?_eq_pair? (ne_of_isKeyChar hc (by decide)) _).trans hpair) ?_ h
  simp only [List.append_eq, List.length_append, List.length_cons]
  omega

/-- The line of a header of one word. -/
theorem Reads.header {key : List Char} {ls : List Line} (hkey : IsWord key) (h : Reads rest ls) :
    Reads ('[' :: (key ++ ']' :: '\n' :: rest)) (.header false [] (String.ofList key) :: ls) := by
  have hdotted : dottedKey? (key ++ ']' :: '\n' :: rest) =
      some (([], String.ofList key), ']' :: '\n' :: rest) :=
    dottedKey?_append hkey (by decide) rfl (by decide)
  have hheader : header? false (key ++ ']' :: '\n' :: rest) =
      some (.header false [] (String.ofList key), rest) := by
    rw [header?, hdotted]
    rfl
  obtain ⟨c, cs, rfl, hc⟩ := hkey.exists_cons
  refine .line (by decide)
    ((line?_eq_header? (ne_of_isKeyChar hc (by decide)) _).trans hheader) ?_ h
  simp only [List.length_append, List.length_cons]
  omega

/-! ### Tables -/

/-- The pair for an entry of the table that its line belongs to. -/
def Pair.ofEntry (entry : String × Item) : Pair :=
  ⟨[], entry.1, entry.2⟩

/-- The lines for the entries of a table. -/
def pairLines (entries : Entries) : List Line :=
  entries.map fun entry => .pair (.ofEntry entry)

theorem sections_pairLines_append (entries : Entries) (ls : List Line) :
    sections (pairLines entries ++ ls) =
      (entries.map Pair.ofEntry ++ (sections ls).1, (sections ls).2) := by
  induction entries with
  | nil => rfl
  | cons entry entries ih =>
    rw [pairLines, List.map_cons, List.cons_append, sections, ← pairLines, ih]
    rfl

theorem lookup_eq_none_of_nodup {entries : Entries} {key : String} {behind : List String}
    (h : (entries.map Prod.fst ++ key :: behind).Nodup) : entries.lookup key = none := by
  refine List.lookup_eq_none_iff.2 fun e he => ?_
  have hnew := List.disjoint_of_nodup_append h (List.mem_map_of_mem he)
  have hne : key ≠ e.1 := fun heq => hnew (heq ▸ List.mem_cons_self)
  simpa using hne

/-- **Entries under different keys make up a table**, in their order. -/
theorem fill?_ofEntry {entries done : Entries} (h : ((done ++ entries).map Prod.fst).Nodup) :
    fill? (entries.map Pair.ofEntry) done = some (done ++ entries) := by
  induction entries generalizing done with
  | nil => simp [fill?]
  | cons entry entries ih =>
    have hnew : done.lookup entry.1 = none := by
      rw [List.map_append, List.map_cons] at h
      exact lookup_eq_none_of_nodup h
    have hstep : insertAt? entry.1 entry.2 [] done = some (done ++ [entry]) := by
      rw [insertAt?, Entries.add?, hnew]
    rw [List.append_cons] at h
    have hrest := ih h
    rw [fill?] at hrest ⊢
    rw [List.map_cons, List.foldlM_cons, List.append_cons, ← hrest]
    simp only [Pair.ofEntry, hstep, Option.bind_eq_bind, Option.bind_some]

/-- Entries and, behind a header, those of one table. -/
theorem assemble?_header {entries inner : Entries} {key : String}
    (hkeys : (entries.map Prod.fst ++ [key]).Nodup) (hinner : (inner.map Prod.fst).Nodup) :
    assemble? (pairLines entries ++ .header false [] key :: pairLines inner) =
      some (entries ++ [(key, .table .header inner)]) := by
  have hsections : sections (pairLines inner) = (inner.map Pair.ofEntry, []) := by
    simpa [sections] using sections_pairLines_append inner []
  have hentries : fill? (entries.map Pair.ofEntry) [] = some entries :=
    fill?_ofEntry (List.Nodup.of_append_left hkeys)
  have htable : fill? (inner.map Pair.ofEntry) [] = some inner := fill?_ofEntry hinner
  rw [assemble?, sections_pairLines_append, sections, hsections]
  simp [hentries, updateAt?, Section.addTo?, lookup_eq_none_of_nodup hkeys, htable]

/-- **A document has the entries that its lines make up.** It is not taken for one with a byte order
mark. -/
theorem Reads.read?_eq {text : String} {ls : List Line} (h : Reads text.toList ls)
    (hmark : text.toList.head? ≠ some '\ufeff') : read? text = assemble? ls := by
  rw [read?]
  split
  · next hchars =>
    rw [hchars] at hmark
    exact absurd rfl hmark
  · rw [h.lines?_eq]
    rfl

end Toml

end TokenHighlight
