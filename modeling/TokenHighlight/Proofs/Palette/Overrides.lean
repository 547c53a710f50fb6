import TokenHighlight.Config.Toml
import TokenHighlight.Palette.Json
import TokenHighlight.Proofs.Json.Record
import TokenHighlight.Proofs.Toml.Reading

/-!
# Partial palettes are read back

A partial palette is written with one entry for each color that is set, under the name of its role.
Names tell roles apart, so an entry is read for the role that it was written for. A role without an
entry stays unset, since reading begins with nothing set.

Both written forms have the same names and hexadecimal colors. In JSON the fields are looked up one
by one; in TOML the entries are taken over one after the other, and the induction is over the roles
whose entries have been taken over.

## Main definitions

* `Palette.Overrides.entries` — a partial palette as a table

## Main results

* `Palette.Overrides.ext_get?` — a partial palette is what it sets for each role
* `Palette.Overrides.ofItem_entries`, `Palette.Overrides.ofJson?_toJson`
-/

namespace TokenHighlight

/-! ### Names and colors -/

namespace ColorRole

theorem mem_all (role : ColorRole) : role ∈ all := by
  cases role <;> decide

theorem nodup_names : (all.map name).Nodup := by
  decide

theorem find?_name (role : ColorRole) : all.find? (·.name = role.name) = some role := by
  cases role <;> decide

theorem isWord_name (role : ColorRole) : Toml.IsWord role.name.toList := by
  cases role <;> exact ⟨List.cons_ne_nil _ _, rfl⟩

end ColorRole

namespace Color

theorem isPlain_of_mem_hexByte {b : UInt8} : ∀ c ∈ Text.hexByte b, Toml.IsPlain c := by
  have hdigit : ∀ n < 16, Toml.IsPlain (Nat.digitChar n) := by
    unfold Toml.IsPlain
    decide
  have hb : b.toNat < 256 := b.toNat_lt
  simp only [Text.hexByte, List.forall_mem_cons]
  exact ⟨hdigit _ (by omega), hdigit _ (by omega), List.forall_mem_nil _⟩

/-- The written form of a color needs no escapes between quotes. -/
theorem isPlain_of_mem_hexDigits (c : Color) : ∀ x ∈ c.hexDigits, Toml.IsPlain x := by
  have hmark : Toml.IsPlain '#' := ⟨by decide, by decide, by decide⟩
  have halpha : ∀ x ∈ (if c.a = 255 then [] else Text.hexByte c.a), Toml.IsPlain x := by
    split
    · exact List.forall_mem_nil _
    · exact isPlain_of_mem_hexByte
  simp only [hexDigits, List.cons_append, List.forall_mem_cons, List.forall_mem_append]
  exact ⟨hmark, ⟨⟨isPlain_of_mem_hexByte, isPlain_of_mem_hexByte⟩, isPlain_of_mem_hexByte⟩, halpha⟩

theorem ofItem_string_toHex (c : Color) : ofItem (.string c.toHex) = .ok c := by
  rw [ofItem, ofHex?_toHex]

theorem ofHexJson?_text_toHex (c : Color) : ofHexJson? (.text c.toHex) = some c := by
  show (ofHex? c.toHex).toOption = some c
  rw [ofHex?_toHex]
  rfl

end Color

namespace Palette.Overrides

/-- A partial palette is what it sets for each role. -/
theorem ext_get? {o o' : Overrides} (h : ∀ role, o.get? role = o'.get? role) : o = o' := by
  obtain ⟨background, highlight, special, paren⟩ := o
  obtain ⟨background', highlight', special', paren'⟩ := o'
  obtain rfl : background = background' := h .background
  obtain rfl : highlight = highlight' := h .highlight
  obtain rfl : special = special' := h .special
  obtain rfl : paren = paren' := h .paren
  rfl

/-! ### As a table -/

/-- The entry for a role, if its color is set. -/
def entryOf? (o : Overrides) (role : ColorRole) : Option (String × Toml.Item) :=
  (o.get? role).map fun c => (role.name, .string c.toHex)

/-- A partial palette as a table. -/
def entries (o : Overrides) : Toml.Entries :=
  ColorRole.all.filterMap o.entryOf?

theorem sublist_names (o : Overrides) (roles : List ColorRole) :
    ((roles.filterMap o.entryOf?).map Prod.fst).Sublist (roles.map ColorRole.name) := by
  induction roles with
  | nil => exact List.Sublist.slnil
  | cons role roles ih =>
    rw [List.filterMap_cons, entryOf?]
    cases o.get? role with
    | none => exact ih.cons role.name
    | some c => exact ih.cons_cons role.name

theorem nodup_entries (o : Overrides) : (o.entries.map Prod.fst).Nodup :=
  ColorRole.nodup_names.sublist (o.sublist_names ColorRole.all)

/-- An entry sets the color for its role and no other. -/
theorem addEntry_name (o : Overrides) (role : ColorRole) (c : Color) :
    o.addEntry (role.name, .string c.toHex) = .ok (o.set role (some c)) := by
  simp only [addEntry, ColorRole.find?_name, Color.ofItem_string_toHex]
  rfl

/-- Behind the entries for some roles, these have the colors that are set for them. -/
theorem exists_foldlM_addEntry (o : Overrides) (roles : List ColorRole) (start : Overrides) :
    ∃ found, (roles.filterMap o.entryOf?).foldlM addEntry start = .ok found ∧
      ∀ role, found.get? role =
        if role ∈ roles then (o.get? role).or (start.get? role) else start.get? role := by
  induction roles generalizing start with
  | nil => exact ⟨start, rfl, fun role => rfl⟩
  | cons first roles ih =>
    cases hfirst : o.get? first with
    | none =>
      have hentry : o.entryOf? first = none := by rw [entryOf?, hfirst, Option.map_none]
      obtain ⟨found, hfold, hget⟩ := ih start
      refine ⟨found, by rwa [List.filterMap_cons_none hentry], fun role => ?_⟩
      by_cases heq : role = first
      · subst heq
        simp [hget, hfirst]
      · simp [hget, heq]
    | some c =>
      have hentry : o.entryOf? first = some (first.name, .string c.toHex) := by
        rw [entryOf?, hfirst, Option.map_some]
      obtain ⟨found, hfold, hget⟩ := ih (start.set first (some c))
      refine ⟨found, ?_, fun role => ?_⟩
      · rw [List.filterMap_cons_some hentry, List.foldlM_cons, addEntry_name]
        exact hfold
      · by_cases heq : role = first
        · subst heq
          simp [hget, hfirst, get?_set]
        · simp [hget, heq, get?_set]

/-- **A partial palette is read back from its table.** -/
theorem ofItem_entries (origin : Toml.Origin) (o : Overrides) :
    ofItem (.table origin o.entries) = .ok o := by
  obtain ⟨found, hfold, hget⟩ := exists_foldlM_addEntry o ColorRole.all .unset
  have hfound : found = o := ext_get? fun role => by
    have hunset : unset.get? role = none := by cases role <;> rfl
    rw [hget, if_pos role.mem_all, hunset, Option.or_none]
  rw [ofItem, entries, hfold, hfound]

/-! ### As a record -/

/-- The fields of a partial palette, each with its value if it is written. -/
def fields (o : Overrides) : List (String × Option Json) :=
  ColorRole.all.map fun role => (role.name, (o.get? role).map fun c => .text c.toHex)

theorem toJson_eq (o : Overrides) : o.toJson = .record (Json.present o.fields) := by
  rw [toJson, Json.present, fields, List.filterMap_map]
  simp [Function.comp_def]

/-- **A partial palette is read back from its record.** -/
theorem ofJson?_toJson (o : Overrides) : ofJson? o.toJson = some o := by
  have hnames : o.fields.map Prod.fst = ColorRole.all.map ColorRole.name := rfl
  have hnodup : (o.fields.map Prod.fst).Nodup := hnames ▸ ColorRole.nodup_names
  have hfields := Json.fields?_present hnodup fun _ h => h
  have hcolor (value : Option Color) :
      Json.optional? Color.ofHexJson? (value.map fun c => .text c.toHex) = some value :=
    Json.optional?_map (fun _ h => Json.noConfusion h) Color.ofHexJson?_text_toHex value
  rw [hnames] at hfields
  rw [ofJson?, toJson_eq, hfields]
  simp only [fields, ColorRole.all, List.map_cons, List.map_nil, hcolor]
  rfl

end Palette.Overrides

end TokenHighlight
