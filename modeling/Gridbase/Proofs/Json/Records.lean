import Gridbase.Json.Record
import Gridbase.Proofs.Json.RoundTrip

/-! # Records, read back

    A record is read field by field.  A field is read back whether it stands among the members
    or, as a field without a value and an empty list, is left out: what is left out is what its
    default gives back.

    * `membersOf` tells what stands under a name, for every way to write a member.
    * `fields?_object`: the fields of an object are what stands under their names.
    * `optional_map`, `withDefault_listField`: a field that may be left out is read back. -/

namespace Gridbase.Json

variable {α : Type} {members : List (String × Json)} {name tag : String}

/-! ## Members -/

@[simp] theorem membersOf_nil (name : String) : membersOf name [] = [] := rfl

@[simp] theorem membersOf_cons (name n : String) (j : Json) (members : List (String × Json)) :
    membersOf name ((n, j) :: members)
      = if n = name then j :: membersOf name members else membersOf name members := by
  rw [membersOf, List.filter_cons]
  by_cases h : n = name
  · rw [if_pos h, if_pos (beq_iff_eq.mpr h)]
    rfl
  · rw [if_neg h, if_neg fun heq => h (beq_iff_eq.mp heq)]
    rfl

@[simp] theorem membersOf_append (name : String) (a b : List (String × Json)) :
    membersOf name (a ++ b) = membersOf name a ++ membersOf name b := by
  rw [membersOf, List.filter_append, List.map_append]
  rfl

@[simp] theorem membersOf_optionalMember (name n : String) (toJson : α → Json) (value : Option α) :
    membersOf name (optionalMember n toJson value)
      = if n = name then (value.map toJson).toList else [] := by
  cases value with
  | none => exact (ite_self _).symm
  | some a => exact membersOf_cons name n (toJson a) []

/-- What is written for a list: nothing if it is empty, and else the array of its items.
    -/
def listField (toJson : α → Json) (items : List α) : Option Json :=
  if items.isEmpty then none else some (.array (items.map toJson))

@[simp] theorem membersOf_listMember (name n : String) (toJson : α → Json) (items : List α) :
    membersOf name (listMember n toJson items)
      = if n = name then (listField toJson items).toList else [] := by
  cases items with
  | nil => exact (ite_self _).symm
  | cons a items => exact membersOf_cons name n (.array ((a :: items).map toJson)) []

theorem memberField?_eq {field : Option Json} (h : membersOf name members = field.toList) :
    memberField? members name = some field := by
  rw [memberField?, h]
  cases field <;> rfl

/-- **THE FIELDS OF AN OBJECT** are what stands under their names, once at most. -/
theorem fields?_object {names : List String} {fields : List (Option Json)}
    (h : List.Forall₂ (fun name field => membersOf name members = field.toList) names fields) :
    fields? names (.object members) = some fields := by
  show memberFields? members names = some fields
  induction h with
  | nil => rfl
  | cons hname _ ih =>
      rw [memberFields?, memberField?_eq hname, ih]
      rfl

@[simp] theorem fields?_single (name : String) (j : Json) :
    fields? [name] (.object [(name, j)]) = some [some j] :=
  fields?_object (.cons (by simp) .nil)

/-- A variant is read back as its name and its other members. -/
theorem variant?_object (h : membersOf tag members = []) (name : String) :
    variant? tag (.object ((tag, .string name) :: members)) = some (name, .object members) := by
  have hothers : ((tag, Json.string name) :: members).filter (fun m => m.1 != tag) = members := by
    rw [List.filter_cons_of_neg (by simp)]
    refine List.filter_eq_self.mpr fun m hm => ?_
    have hnone := List.filter_eq_nil_iff.mp (List.map_eq_nil_iff.mp h) m hm
    simpa using hnone
  rw [variant?, membersOf_cons, if_pos rfl, h]
  dsimp only
  rw [hothers]

/-! ## Values of fields -/

@[simp] theorem required_some (value? : Json → Option α) (j : Json) :
    required value? (some j) = value? j := rfl

@[simp] theorem withDefault_some (preset : α) (value? : Json → Option α) (j : Json) :
    withDefault preset value? (some j) = value? j := rfl

@[simp] theorem string?_string (s : String) : string? (.string s) = some s := rfl

@[simp] theorem bool?_bool (b : Bool) : bool? (.bool b) = some b := rfl

theorem integerWithin?_of_mem {low high n : Int} (h : low ≤ n ∧ n ≤ high) :
    integerWithin? low high (.integer n) = some n := if_pos h

@[simp] theorem uint8?_ofNat (n : UInt8) : uint8? (ofNat n.toNat) = some n := by
  have hn := n.toNat_lt
  rw [uint8?, ofNat, integerWithin?_of_mem ⟨by omega, by omega⟩, Option.map_some, Int.toNat_natCast,
    UInt8.ofNat_toNat]

@[simp] theorem uint32?_ofNat (n : UInt32) : uint32? (ofNat n.toNat) = some n := by
  have hn := n.toNat_lt
  rw [uint32?, ofNat, integerWithin?_of_mem ⟨by omega, by omega⟩, Option.map_some,
    Int.toNat_natCast, UInt32.ofNat_toNat]

@[simp] theorem int64?_toInt (n : Int64) : int64? (.integer n.toInt) = some n := by
  have hlow := n.le_toInt
  have hhigh := n.toInt_lt
  rw [int64?, integerWithin?_of_mem ⟨hlow, by omega⟩, Option.map_some, Int64.ofInt_toInt]

/-- A list of written items is read back. -/
theorem array?_map {item? : Json → Option α} {toJson : α → Json} {items : List α}
    (h : ∀ a ∈ items, item? (toJson a) = some a) :
    array? item? (.array (items.map toJson)) = some items := by
  show listOf? item? (items.map toJson) = some items
  induction items with
  | nil => rfl
  | cons a items ih =>
      obtain ⟨ha, hitems⟩ := List.forall_mem_cons.mp h
      rw [List.map_cons, listOf?, ha, ih hitems]
      rfl

/-- **A FIELD WITHOUT A VALUE** is left out, and is read back as such. -/
theorem optional_map {value? : Json → Option α} {toJson : α → Json} (hnull : ∀ a, toJson a ≠ .null)
    (h : ∀ a, value? (toJson a) = some a) (value : Option α) :
    optional value? (value.map toJson) = some value := by
  cases value with
  | none => rfl
  | some a =>
      rw [Option.map_some, optional, h]
      · rfl
      · exact hnull a

@[simp] theorem optional_uint8 (value : Option UInt8) :
    optional uint8? (value.map fun n => ofNat n.toNat) = some value := by
  refine optional_map ?_ uint8?_ofNat value
  intro n h
  exact nomatch h

@[simp] theorem optional_uint32 (value : Option UInt32) :
    optional uint32? (value.map fun n => ofNat n.toNat) = some value := by
  refine optional_map ?_ uint32?_ofNat value
  intro n h
  exact nomatch h

@[simp] theorem optional_string (value : Option String) :
    optional string? (value.map Json.string) = some value := by
  refine optional_map ?_ string?_string value
  intro s h
  exact nomatch h

/-- **AN EMPTY LIST** is left out, and its default gives it back. -/
theorem withDefault_listField {item? : Json → Option α} {toJson : α → Json} {items : List α}
    (h : ∀ a ∈ items, item? (toJson a) = some a) :
    withDefault [] (array? item?) (listField toJson items) = some items := by
  cases items with
  | nil => rfl
  | cons a items => exact array?_map h

/-! ## Bounds -/

section
variable {fine : Binary64 → Prop} {depth : Nat} {j : Json}

theorem within_ofNat {n : Nat} (h : n < 2 ^ 64) : Within fine depth (ofNat n) :=
  .integer ⟨Int.le_trans (by decide) (Int.natCast_nonneg n), Int.ofNat_lt.mpr h⟩

theorem within_uint8 (n : UInt8) : Within fine depth (ofNat n.toNat) :=
  within_ofNat (Nat.lt_trans n.toNat_lt (by decide))

theorem within_uint32 (n : UInt32) : Within fine depth (ofNat n.toNat) :=
  within_ofNat (Nat.lt_trans n.toNat_lt (by decide))

theorem within_int64 (n : Int64) : Within fine depth (.integer n.toInt) :=
  .integer ⟨n.le_toInt, Int.lt_trans n.toInt_lt (by decide)⟩

theorem within_map {toJson : α → Json} {items : List α}
    (h : ∀ a ∈ items, Within fine depth (toJson a)) :
    Within fine (depth + 1) (.array (items.map toJson)) := by
  refine .array fun j hj => ?_
  obtain ⟨a, ha, rfl⟩ := List.mem_map.mp hj
  exact h a ha

theorem within_optionalMember (name : String) {toJson : α → Json} {value : Option α}
    (h : ∀ a ∈ value, Within fine depth (toJson a)) :
    ∀ m ∈ optionalMember name toJson value, Within fine depth m.2 := by
  cases value with
  | none => exact List.forall_mem_nil _
  | some a => exact List.forall_mem_singleton.mpr (h a rfl)

theorem within_listMember (name : String) {toJson : α → Json} {items : List α}
    (h : ∀ a ∈ items, Within fine depth (toJson a)) :
    ∀ m ∈ listMember name toJson items, Within fine (depth + 1) m.2 := by
  rw [listMember]
  split
  · exact List.forall_mem_nil _
  · exact List.forall_mem_singleton.mpr (within_map h)

end

end Gridbase.Json
