import Mathlib.Data.List.Basic
import TokenHighlight.Json.Record
import TokenHighlight.Proofs.Json.Number

/-!
# Records are read back

A record is written as an object with one member for each field that has a value. Fields have
different names, so looking one up finds the member that was written for it and no other, or finds
that there is none. A reader may ask for only some of the fields, in an order of its own.

A field that may be missing is read back as long as no value is written as null, since null reads
as missing.

## Main definitions

* `Json.present` — the members that are written for the fields of a record

## Main results

* `Json.member?_present`, `Json.fields?_present` — each field has the value it was written with
* `Json.optional?_map` — a value that may be missing
* `Json.naturalOf?_natural`, `Json.naturalBelow?_natural` — natural numbers
* `Json.depth_record_present`, `Json.all_record_present` — a record nests one level deeper than its
  values, and passes a test on every leaf if they do
-/

namespace TokenHighlight

namespace Json

/-! ### Looking up what was written -/

/-- A member as an object holds it. -/
def keyed (member : String × Json) : Option String × Json :=
  (some member.1, member.2)

/-- The members that are written for the fields of a record: one for each that has a value. -/
def present (fields : List (String × Option Json)) : List (String × Json) :=
  fields.filterMap fun field => field.2.map (field.1, ·)

theorem record_eq (members : List (String × Json)) :
    record members = .object (members.map keyed) := rfl

theorem present_nil : present [] = [] := rfl

theorem present_cons (field : String × Option Json) (fields : List (String × Option Json)) :
    present (field :: fields) = (field.2.map (field.1, ·)).toList ++ present fields := by
  obtain ⟨name, value⟩ := field
  cases value <;> rfl

theorem mem_of_mem_present {fields : List (String × Option Json)} {member : String × Json}
    (h : member ∈ present fields) : (member.1, some member.2) ∈ fields := by
  obtain ⟨⟨name, value⟩, hfield, hmember⟩ := List.mem_filterMap.1 h
  obtain ⟨j, rfl, rfl⟩ := Option.map_eq_some_iff.1 hmember
  exact hfield

/-- What is found under the name of a field is what was written for it. -/
theorem filter_present {fields : List (String × Option Json)} {field : String × Option Json}
    (hnames : (fields.map Prod.fst).Nodup) (h : field ∈ fields) :
    (present fields).filter (fun m => m.1 = field.1) = (field.2.map (field.1, ·)).toList := by
  induction fields with
  | nil => cases h
  | cons head fields ih =>
    obtain ⟨hhead, hnames⟩ := List.nodup_cons.1 hnames
    rw [present_cons, List.filter_append]
    rcases List.mem_cons.1 h with rfl | h
    · have hrest : (present fields).filter (fun m => m.1 = field.1) = [] := by
        refine List.filter_eq_nil_iff.2 fun m hm => ?_
        have hne : m.1 ≠ field.1 := fun hm₁ =>
          hhead (hm₁ ▸ List.mem_map_of_mem (mem_of_mem_present hm))
        simpa using hne
      rw [hrest, List.append_nil]
      cases field.2 <;> simp
    · have hne : head.1 ≠ field.1 := fun hhead₁ => hhead (hhead₁ ▸ List.mem_map_of_mem h)
      rw [ih hnames h]
      cases head.2 <;> simp [hne]

/-- **Each field has the value it was written with**, or none. -/
theorem member?_present {fields : List (String × Option Json)} {field : String × Option Json}
    (hnames : (fields.map Prod.fst).Nodup) (h : field ∈ fields) :
    member? ((present fields).map keyed) field.1 = some field.2 := by
  have hfilter : ((present fields).map keyed).filter (fun m => m.1 = some field.1) =
      ((field.2.map (field.1, ·)).toList).map keyed := by
    rw [List.filter_map, ← filter_present hnames h]
    congr 1
    simp [keyed, Function.comp_def]
  rw [member?, hfilter]
  cases field.2 <;> rfl

/-- Some of the fields of a record, in the order in which they are asked for. -/
theorem fields?_present {fields asked : List (String × Option Json)}
    (hnames : (fields.map Prod.fst).Nodup) (hasked : ∀ field ∈ asked, field ∈ fields) :
    fields? (asked.map Prod.fst) (record (present fields)) = some (asked.map Prod.snd) := by
  have hkeys : ((present fields).map keyed).all (fun m => m.1.isSome) = true := by simp [keyed]
  rw [record_eq, fields?, if_pos hkeys]
  induction asked with
  | nil => rfl
  | cons field asked ih =>
    obtain ⟨hfield, hasked⟩ := List.forall_mem_cons.1 hasked
    rw [List.map_cons, List.mapM_cons, member?_present hnames hfield, ih hasked]
    rfl

/-! ### Values of fields -/

/-- **A value that may be missing is read back**, if it is written as something and not as null. -/
theorem optional?_map {α : Type} {write : α → Json} {read? : Json → Option α}
    (hnull : ∀ a, write a ≠ .null) (hread : ∀ a, read? (write a) = some a) (value : Option α) :
    optional? read? (value.map write) = some value := by
  cases value with
  | none => rfl
  | some a =>
    show optional? read? (some (write a)) = some (some a)
    unfold optional?
    split
    · next h => cases h
    · next h => exact absurd (Option.some.inj h) (hnull a)
    · next h =>
      cases h
      rw [hread, Option.map_some]

theorem naturalOf?_natural (n : UInt64) : naturalOf? (natural n.toNat) = some n :=
  Number.natural?_natural n

theorem naturalBelow?_natural {bound n : Nat} (hbound : bound ≤ UInt64.size) (hn : n < bound) :
    naturalBelow? bound (natural n) = some n := by
  have hsize : n < UInt64.size := Nat.lt_of_lt_of_le hn hbound
  have htoNat : (UInt64.ofNat n).toNat = n := UInt64.toNat_ofNat_of_lt' hsize
  have hread := naturalOf?_natural (.ofNat n)
  rw [htoNat] at hread
  simp [naturalBelow?, hread, htoNat, hn]

/-! ### Nesting and tests on every leaf -/

/-- A record nests one level deeper than the deepest of its values. -/
theorem depth_record_present (fields : List (String × Option Json)) :
    (record (present fields)).depth =
      1 + (fields.map fun field => field.2.elim 0 depth).foldr max 0 := by
  rw [record_eq, depth]
  congr 1
  induction fields with
  | nil => rfl
  | cons field fields ih =>
    rw [present_cons, List.map_cons, List.foldr_cons, ← ih]
    cases field.2 with
    | none => simp
    | some j => rfl

/-- A record passes a test on every leaf if its values do. -/
theorem all_record_present (p : Number → Bool) (fields : List (String × Option Json)) :
    (record (present fields)).all p = fields.all fun field => field.2.all (Json.all p) := by
  rw [record_eq, all]
  induction fields with
  | nil => rfl
  | cons field fields ih =>
    rw [present_cons, List.all_cons, ← ih]
    cases field.2 with
    | none => simp
    | some j => simp [keyed, allMembers]

end Json

end TokenHighlight
