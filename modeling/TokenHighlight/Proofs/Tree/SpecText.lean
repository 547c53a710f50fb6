import TokenHighlight.Proofs.Json.Record
import TokenHighlight.Proofs.Json.RoundTrip
import TokenHighlight.Tree.Spec.Json

/-!
# Descriptions are read back

The text of a description spells its value (`Json.read?_compact`), so what is left is that the value
reads as the description it was made for. Nothing about the description can stand in the way but how
deep it goes: texts hold any characters, numbers of 64 bits are kept, and fields that are left out
read as missing.

How deep a description goes counts twice in reading. The whole value is measured, and the reader
that goes down into groups is given so many levels to go. A group writes two levels where the
reader takes one, since its children stand in an array inside its object; so the measure is the one
that can fail, and the levels are enough whenever it does not.

## Main definitions

* `Spec.nesting` — how deep the text of a description nests
* `Spec.fields`, `TokenData.fields` — the fields that are written, with those left out as none

## Main results

* `Spec.depth_toJson` — the nesting of a description is the depth of its value
* `Spec.all_toJson` — its value is sound
* `Spec.ofJsonWithin?_toJson` — a reader with enough levels gives it back
* `Spec.read?_write` — it is read back from its text, just if it nests at most 127 levels
-/

namespace TokenHighlight

/-! ### Brackets -/

namespace Bracket

theorem ofJson?_toJson (b : Bracket) : ofJson? b.toJson = some b := by
  have hread (pair : UInt32) :
      Json.naturalBelow? UInt32.size (.natural pair.toNat) = some pair.toNat :=
    Json.naturalBelow?_natural (by decide) pair.toNat_lt
  cases b <;> simp [toJson, Json.record, ofJson?, hread]

theorem depth_toJson (b : Bracket) : b.toJson.depth = 1 := by
  cases b <;> rfl

theorem all_toJson (b : Bracket) : b.toJson.all Json.Number.isFinite = true := by
  have hfinite (pair : UInt32) : Json.Number.isFinite { whole := pair.toNat } = true :=
    Json.Number.isFinite_natural (Nat.lt_trans pair.toNat_lt (by decide))
  cases b <;> simp [toJson, Json.record, Json.all, Json.allMembers, Json.natural, hfinite]

end Bracket

/-! ### Tokens -/

namespace TokenData

/-- The fields of a token, each with its value if it is written. -/
def fields (data : TokenData) : List (String × Option Json) :=
  [("text", some (.text data.text)),
    ("address", data.address.map (.natural ·.toNat)),
    ("bracket", data.bracket.map Bracket.toJson),
    ("varnode", data.varnode.map (.natural ·.toNat)),
    ("op", data.op.map (.natural ·.toNat))]

theorem optionalMember_eq (name : String) (value : Option Json) :
    optionalMember name value = (value.map (name, ·)).toList := by
  cases value <;> rfl

theorem toMembers_eq (data : TokenData) : data.toMembers = Json.present data.fields := by
  simp [toMembers, fields, Json.present_cons, Json.present_nil, optionalMember_eq]

theorem ofFields?_fields (data : TokenData) :
    ofFields? (data.fields.map Prod.snd) = some data := by
  have hnatural (value : Option UInt64) :
      Json.optional? Json.naturalOf? (value.map (.natural ·.toNat)) = some value :=
    Json.optional?_map (fun _ h => Json.noConfusion h) Json.naturalOf?_natural value
  have hbracket : Json.optional? Bracket.ofJson? (data.bracket.map Bracket.toJson) =
      some data.bracket := by
    refine Json.optional?_map (fun b h => ?_) Bracket.ofJson?_toJson data.bracket
    cases b <;> cases h
  simp only [fields, List.map_cons, List.map_nil, ofFields?, hnatural, hbracket]
  rfl

end TokenData

/-! ### Descriptions -/

namespace Spec

mutual

/-- How deep the text of a description nests: two levels for a group, its own and that of its
children, and one for a token, or two if it has a bracket. -/
def nesting : Spec → Nat
  | .group children => 2 + nestingOfAll children
  | .token data => if data.bracket.isSome then 2 else 1

/-- The nesting of the deepest of some descriptions. -/
def nestingOfAll : List Spec → Nat
  | [] => 0
  | s :: rest => max s.nesting (nestingOfAll rest)

end

/-- The fields of a description, each with its value if it is written. -/
def fields : Spec → List (String × Option Json)
  | .group children =>
    [("kind", some (.text "group")), ("children", some (.array (listToJson children)))]
  | .token data => ("kind", some (.text "token")) :: data.fields

theorem toJson_eq (s : Spec) : s.toJson = .record (Json.present s.fields) := by
  cases s with
  | group children =>
    rw [toJson]
    rfl
  | token data =>
    rw [toJson, fields, TokenData.toMembers_eq, Json.present_cons]
    rfl

theorem nodup_fields (s : Spec) : (s.fields.map Prod.fst).Nodup := by
  cases s <;> simp [fields, TokenData.fields]

mutual

/-- **The nesting of a description is the depth of its value.** -/
theorem depth_toJson (s : Spec) : s.toJson.depth = s.nesting := by
  rw [toJson_eq, Json.depth_record_present]
  match s with
  | .group children =>
    have hchildren := depthElements_listToJson children
    simp only [fields, nesting, List.map_cons, List.map_nil, List.foldr_cons, List.foldr_nil,
      Option.elim_some, Json.depth, Json.text, hchildren]
    omega
  | .token data =>
    have hnatural (value : Option UInt64) :
        (value.map fun n => Json.natural n.toNat).elim 0 Json.depth = 0 := by
      cases value <;> rfl
    cases hbracket : data.bracket <;>
      simp [fields, TokenData.fields, nesting, hbracket, hnatural, Json.depth, Json.text,
        Bracket.depth_toJson]

theorem depthElements_listToJson (specs : List Spec) :
    Json.depthElements (listToJson specs) = nestingOfAll specs := by
  match specs with
  | [] => rfl
  | s :: rest =>
    rw [listToJson, Json.depthElements, nestingOfAll, depth_toJson s, depthElements_listToJson rest]

end

mutual

/-- **The value of a description is sound**: its strings have texts, and its numbers have a value in
double precision. -/
theorem all_toJson (s : Spec) : s.toJson.all Json.Number.isFinite = true := by
  rw [toJson_eq, Json.all_record_present]
  match s with
  | .group children =>
    have hchildren := allElements_listToJson children
    simp [fields, Json.all, Json.text, hchildren]
  | .token data =>
    have hnatural (value : Option UInt64) :
        (value.map fun n => Json.natural n.toNat).all (Json.all Json.Number.isFinite) = true := by
      cases value with
      | none => rfl
      | some n => exact Json.Number.isFinite_natural n.toNat_lt
    cases hbracket : data.bracket <;>
      simp [fields, TokenData.fields, hbracket, hnatural, Json.all, Json.text, Bracket.all_toJson]

theorem allElements_listToJson (specs : List Spec) :
    Json.allElements Json.Number.isFinite (listToJson specs) = true := by
  match specs with
  | [] => rfl
  | s :: rest =>
    rw [listToJson, Json.allElements, all_toJson s, allElements_listToJson rest, Bool.and_self]

end

/-! ### Reading -/

/-- The kind of a description. -/
def kind : Spec → Kind
  | .group _ => .group
  | .token _ => .token

/-- The value of a description is taken apart into its kind and the values of its other fields. -/
theorem split?_toJson (inner : Bool) (s : Spec) :
    split? inner s.toJson = some (s.kind, s.fields.tail.map Prod.snd) := by
  obtain ⟨value, hfield, hkind⟩ : ∃ value, ("kind", some value) ∈ s.fields ∧
      Kind.ofJson? inner value = some s.kind := by
    cases s <;> exact ⟨_, List.mem_cons_self, rfl⟩
  have hnames : s.kind.fields = s.fields.tail.map Prod.fst := by
    cases s <;> rfl
  have hasked : ∀ field ∈ s.fields.tail, field ∈ s.fields := fun _ h => List.mem_of_mem_tail h
  have hmember := Json.member?_present s.nodup_fields hfield
  have hfields := Json.fields?_present s.nodup_fields hasked
  rw [Json.record_eq] at hfields
  rw [toJson_eq, Json.record_eq, split?, hmember]
  simp only [Option.bind_eq_bind, Option.bind_some, hkind, hnames, hfields]
  rfl

mutual

/-- **A description is read back from its value** by a reader that has enough levels to go. -/
theorem ofJsonWithin?_toJson (inner : Bool) {levels : Nat} (s : Spec) (h : s.nesting ≤ levels) :
    ofJsonWithin? levels inner s.toJson = some s := by
  match levels, s with
  | 0, .group _ =>
    rw [nesting] at h
    omega
  | 0, .token _ =>
    rw [nesting] at h
    split at h <;> omega
  | levels + 1, .group children =>
    have hchildren : nestingOfAll children ≤ levels := by
      rw [nesting] at h
      omega
    have hread := mapM_ofJsonWithin?_listToJson children hchildren
    rw [ofJsonWithin?, split?_toJson]
    simp [kind, fields, hread]
  | levels + 1, .token data =>
    have hread := data.ofFields?_fields
    rw [ofJsonWithin?, split?_toJson]
    simp [kind, fields, hread]

theorem mapM_ofJsonWithin?_listToJson {levels : Nat} (specs : List Spec)
    (h : nestingOfAll specs ≤ levels) :
    (listToJson specs).mapM (ofJsonWithin? levels true) = some specs := by
  match specs with
  | [] => rfl
  | s :: rest =>
    rw [nestingOfAll] at h
    rw [listToJson, List.mapM_cons, ofJsonWithin?_toJson true s (by omega),
      mapM_ofJsonWithin?_listToJson rest (by omega)]
    rfl

end

/-- **A description is read back from its text just if it nests at most 127 levels.** The text
always spells the value of the description, and the levels are those of that value. -/
theorem read?_write (s : Spec) :
    Json.read? s.write = some s.toJson ∧ s.toJson.depth = s.nesting ∧
      read? s.write = if s.nesting ≤ 127 then some s else none := by
  have hvalue : Json.read? s.write = some s.toJson := Json.read?_compact s.toJson
  refine ⟨hvalue, depth_toJson s, ?_⟩
  rw [read?, hvalue, Option.bind_some, ofJson?, depth_toJson, all_toJson, Bool.and_true]
  by_cases h : s.nesting ≤ 127
  · rw [if_pos h, if_pos (show decide (s.nesting ≤ maxDepth) = true from decide_eq_true h)]
    exact ofJsonWithin?_toJson false s h
  · have hdeep : ¬ decide (s.nesting ≤ maxDepth) = true := fun hle => h (of_decide_eq_true hle)
    rw [if_neg h, if_neg hdeep]

end Spec

end TokenHighlight
