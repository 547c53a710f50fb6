import TokenHighlight.Config.Files
import TokenHighlight.Config.Json
import TokenHighlight.Json.Reader
import TokenHighlight.Proofs.Json.RoundTrip
import TokenHighlight.Proofs.Palette.Overrides

/-!
# Saved configurations

A configuration is saved as a document of two parts: a line for the truth value, and the table of
the colors that are set. Each line is read back as it was written (`Toml.Reads`), the lines below
the header make up the table (`Toml.fill?_ofEntry`), and the table reads as the partial palette.

A file that can be written holds what was written last, whatever it held before, and text is read
back from its bytes. So what is loaded is what was saved.

## Main definitions

* `Files.IsWritable` — whether a file can be written at a path

## Main results

* `Files.isWritable_iff`, `Files.readText?_create` — which paths can be written, and that a text is
  read back from where it was written
* `Config.read?_toToml`, `Config.ofToml_toToml` — the document of a configuration
* `Config.ofJson?_toJson` — the record of a configuration
* `Config.loadFrom_saveTo` — a configuration that is saved is loaded again, and read back from JSON
-/

namespace TokenHighlight

/-! ### Files that can be written -/

namespace Files

/-- Whether a file can be written at a path, with some contents, the directories on the way made. -/
def IsWritable (fs : Files) (p : Path) : Prop :=
  ∃ contents, (fs.create p contents).1 = true

theorem isSome_write?_iff {fs : Files} {p : Path} {contents : ByteArray} :
    (fs.write? p contents).isSome = true ↔
      ∃ loc, fs.target? p = some loc ∧ fs.isDirectory loc = false := by
  cases hloc : fs.target? p with
  | none => simp [write?, hloc]
  | some loc => cases hdir : fs.isDirectory loc <;> simp [write?, hloc, hdir]

theorem create_fst (fs : Files) (p : Path) (contents : ByteArray) :
    (fs.create p contents).1 = ((fs.makeDirectories p.parent).write? p contents).isSome := by
  rw [create]
  cases (fs.makeDirectories p.parent).write? p contents <;> rfl

/-- A path can be written if it leads somewhere, once the directories are made, and not to a
directory. What is written has no part in it. -/
theorem isWritable_iff {fs : Files} {p : Path} : fs.IsWritable p ↔
    ∃ loc, (fs.makeDirectories p.parent).target? p = some loc ∧
      (fs.makeDirectories p.parent).isDirectory loc = false := by
  simp only [IsWritable, create_fst, isSome_write?_iff]
  exact ⟨fun ⟨_, h⟩ => h, fun h => ⟨ByteArray.empty, h⟩⟩

theorem fromUTF8?_toUTF8 (s : String) : String.fromUTF8? s.toUTF8 = some s := by
  simp only [String.fromUTF8?, String.toUTF8_eq_toByteArray]
  rw [dif_pos s.isValidUTF8]
  rfl

/-- **A text is read back from where it was written**, whatever was there before. -/
theorem readText?_create {fs : Files} {p : Path} (h : fs.IsWritable p) (text : String) :
    ∃ fs', fs.create p text.toUTF8 = (true, fs') ∧ fs'.readText? p = some text := by
  obtain ⟨fs', hwrite⟩ : ∃ fs', (fs.makeDirectories p.parent).write? p text.toUTF8 = some fs' :=
    Option.isSome_iff_exists.1 (isSome_write?_iff.2 (isWritable_iff.1 h))
  refine ⟨fs', by rw [create, hwrite], ?_⟩
  rw [readText?, read?_of_write? hwrite, Option.bind_some, fromUTF8?_toUTF8]

end Files

namespace Config

/-! ### As a document -/

/-- The line for a color. -/
theorem reads_colorLine (role : ColorRole) (c : Color) {rest : List Char} {ls : List Toml.Line}
    (h : Toml.Reads rest ls) : Toml.Reads ((colorLine role c).toList ++ rest)
      (.pair (.ofEntry (role.name, .string c.toHex)) :: ls) := by
  have hne : c.hexDigits ≠ [] := List.cons_ne_nil _ _
  have hvalue : Toml.value? ('"' :: (c.hexDigits ++ '"' :: '\n' :: rest)) =
      some (.string c.toHex, '\n' :: rest) :=
    Toml.value?_string hne c.isPlain_of_mem_hexDigits
  have hchars : (colorLine role c).toList ++ rest =
      role.name.toList ++ ' ' :: '=' :: ' ' :: '"' :: (c.hexDigits ++ '"' :: '\n' :: rest) := by
    simp [colorLine, Color.toHex]
  have hname : String.ofList role.name.toList = role.name := String.ofList_toList
  have hlength : rest.length ≤ ('"' :: (c.hexDigits ++ '"' :: '\n' :: rest)).length := by
    rw [List.length_cons, List.length_append, List.length_cons, List.length_cons]
    omega
  have hline := Toml.Reads.pair role.isWord_name rfl hvalue hlength h
  rwa [hname, ← hchars] at hline

/-- The lines for the colors of a partial palette. -/
theorem reads_colorLines (o : Palette.Overrides) (roles : List ColorRole) :
    Toml.Reads
      (String.join (roles.filterMap fun role => (o.get? role).map (colorLine role))).toList
      (Toml.pairLines (roles.filterMap o.entryOf?)) := by
  rw [String.toList_join]
  induction roles with
  | nil => exact .nil
  | cons role roles ih =>
    rw [List.filterMap_cons, List.filterMap_cons, Palette.Overrides.entryOf?]
    cases o.get? role with
    | none => exact ih
    | some c => exact reads_colorLine role c ih

/-- What the lines of a saved configuration are. -/
theorem reads_toToml (c : Config) : Toml.Reads c.toToml.toList
    (Toml.pairLines [("fill_gaps", .bool c.fillGaps)] ++
      .header false [] "palette" :: Toml.pairLines c.palette.entries) := by
  have hpalette : Toml.IsWord "palette".toList := ⟨List.cons_ne_nil _ _, rfl⟩
  have hfill : Toml.IsWord "fill_gaps".toList := ⟨List.cons_ne_nil _ _, rfl⟩
  have hblank (b : Bool) (rest : List Char) :
      Toml.skipBlanks ((if b then "true" else "false").toList ++ rest) =
        (if b then "true" else "false").toList ++ rest := by
    cases b <;> rfl
  have hlength (b : Bool) (rest : List Char) :
      rest.length ≤ ((if b then "true" else "false").toList ++ '\n' :: rest).length := by
    rw [List.length_append, List.length_cons]
    omega
  have htable := (Toml.Reads.header hpalette (reads_colorLines c.palette ColorRole.all)).empty
  have hdocument := Toml.Reads.pair hfill (hblank _ _) (Toml.value?_bool c.fillGaps)
    (hlength _ _) htable
  rw [String.ofList_toList, String.ofList_toList] at hdocument
  have hchars : c.toToml.toList = "fill_gaps".toList ++ ' ' :: '=' :: ' ' ::
      ((if c.fillGaps then "true" else "false").toList ++ '\n' :: '\n' ::
        '[' :: ("palette".toList ++ ']' :: '\n' :: (String.join (ColorRole.all.filterMap
          fun role => (c.palette.get? role).map (colorLine role))).toList)) := by
    simp [toToml]
  rw [hchars]
  exact hdocument

/-- The entries of a saved configuration. -/
theorem read?_toToml (c : Config) : Toml.read? c.toToml =
    some [("fill_gaps", .bool c.fillGaps), ("palette", .table .header c.palette.entries)] := by
  have hmark : c.toToml.toList.head? ≠ some '\ufeff' := by simp [toToml]
  rw [(reads_toToml c).read?_eq hmark]
  exact Toml.assemble?_header (by simp) c.palette.nodup_entries

/-- **A configuration is read back from its document.** -/
theorem ofToml_toToml (c : Config) : ofToml c.toToml = .ok c := by
  have hfill : addEntry default ("fill_gaps", .bool c.fillGaps) = .ok { fillGaps := c.fillGaps } :=
    rfl
  have hpalette : addEntry { fillGaps := c.fillGaps }
      ("palette", .table .header c.palette.entries) = .ok c := by
    rw [addEntry, if_neg (show ¬ "palette" = "fill_gaps" by decide), if_pos rfl,
      Palette.Overrides.ofItem_entries]
    rfl
  rw [ofToml, read?_toToml]
  simp only [List.foldlM_cons, List.foldlM_nil, hfill]
  exact congrArg (· >>= pure) hpalette

/-! ### As a record -/

/-- **A configuration is read back from its record.** -/
theorem ofJson?_toJson (c : Config) : ofJson? c.toJson = some c := by
  have hfields : Json.fields? ["fill_gaps", "palette"] c.toJson =
      some [some (.bool c.fillGaps), some c.palette.toJson] := rfl
  rw [ofJson?, hfields]
  simp [Palette.Overrides.ofJson?_toJson, Json.boolOf?]

/-! ### Saving and loading -/

/-- **A configuration that is saved is loaded again**, whatever the file held before, and is read
back from its text in JSON. -/
theorem loadFrom_saveTo (c : Config) {fs : Files} {path : Files.Path} (h : fs.IsWritable path) :
    (c.saveTo fs path).1 = .ok () ∧ loadFrom (c.saveTo fs path).2 path = .ok c ∧
      (Json.read? c.toJson.compact).bind ofJson? = some c := by
  obtain ⟨fs', hcreate, htext⟩ := Files.readText?_create h c.toToml
  have hsave : c.saveTo fs path = (.ok (), fs') := by rw [saveTo, hcreate]
  have hload : loadFrom fs' path = .ok c := by rw [loadFrom, htext, ofText, ofToml_toToml]
  have hjson : (Json.read? c.toJson.compact).bind ofJson? = some c := by
    rw [Json.read?_compact, Option.bind_some, ofJson?_toJson]
  rw [hsave]
  exact ⟨rfl, hload, hjson⟩

/-- A file with other contents is in the way, below a directory that is there. -/
theorem loadFrom_saveTo_sample :
    let path : Files.Path := ⟨["conf", "highlight.toml"]⟩
    let fs := ((Files.startingIn ["home"]).create path "fill_gaps = 1".toUTF8).2
    let c : Config := ⟨true, some (.rgb 18 52 86), none, none, some ⟨255, 0, 0, 128⟩⟩
    fs.IsWritable path ∧ (c.saveTo fs path).1 = .ok () ∧
      loadFrom (c.saveTo fs path).2 path = .ok c ∧
      (Json.read? c.toJson.compact).bind ofJson? = some c := by
  intro path fs c
  have h : fs.IsWritable path := ⟨ByteArray.empty, by decide +kernel⟩
  exact ⟨h, loadFrom_saveTo c h⟩

end Config

end TokenHighlight
