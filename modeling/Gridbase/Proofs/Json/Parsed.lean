import Gridbase.Proofs.Binary64
import Gridbase.Proofs.Json.RoundTrip

/-! # What is parsed

    A parsed value keeps the bounds of the reader: it does not nest too deep, its integers have
    64 bits, and its doubles are finite (`bounded_of_parse?`).

    * A significand has 64 bits, and powers of ten only make it smaller, or else the reader
      looks whether the product is finite (`isFinite_of_scaled?`).
    * The bounds are kept by every step of the reader, of values, of items and of members
      (`keepsBounds`, by induction on the fuel). -/

namespace Gridbase.Json

open Gridbase.Text

variable {depth fuel : Nat} {j : Json} {cs rest : List Char}

/-! ## Numbers -/

/-- A significand has 64 bits. -/
theorem significand_lt (cs : List Char) : ∀ {n : Nat}, n < 2 ^ 64 → (significand n cs).1 < 2 ^ 64 := by
  induction cs with
  | nil => exact fun h => h
  | cons c cs ih =>
      intro n h
      rw [significand]
      split
      · rename_i hnext
        exact ih hnext
      · exact h

theorem natAbs_mul_two_pow (n : Int) (k : Nat) : (n * 2 ^ k).natAbs = n.natAbs * 2 ^ k := by
  rw [Int.natAbs_mul, Int.natAbs_pow]
  rfl

/-- An integer below a power of two is not rounded beyond the next. -/
theorem magnitude_ofInt_lt {n : Int} {k : Nat} (h : n.natAbs < 2 ^ k) :
    (Binary64.ofInt n).magnitude < 2 ^ (k + 1074 + 1) := by
  refine Binary64.magnitude_nearest_lt _ (by omega) ?_
  rw [natAbs_mul_two_pow, Nat.div_one, Nat.pow_add]
  exact Nat.mul_lt_mul_of_pos_right h (Nat.two_pow_pos _)

theorem isFinite_ofInt {n : Int} (h : InRange n) : (Binary64.ofInt n).isFinite = true := by
  obtain ⟨hlow, hhigh⟩ := h
  have habs : n.natAbs < 2 ^ 65 := by omega
  exact Binary64.isFinite_of_magnitude_lt (by decide) (magnitude_ofInt_lt habs)

/-- Powers of ten are not rounded to less than one. -/
theorem one_le_powerOfTen (n : Nat) : 2 ^ 1074 ≤ (powerOfTen n).magnitude := by
  refine Binary64.le_magnitude_nearest _ (by decide) (by decide) ?_
  rw [natAbs_mul_two_pow, Int.natAbs_pow, Nat.div_one]
  exact Nat.le_mul_of_pos_left _ (Nat.pow_pos (by decide))

theorem magnitude_div_lt {x : Binary64} {k : Nat} (hk : 53 ≤ k) (h : x.magnitude < 2 ^ k)
    (n : Nat) : (x.div (powerOfTen n)).magnitude < 2 ^ (k + 1) := by
  refine Binary64.magnitude_nearest_lt _ hk (Nat.lt_of_le_of_lt (Nat.div_le_of_le_mul ?_) h)
  rw [Nat.mul_comm]
  exact Nat.mul_le_mul_right _ (one_le_powerOfTen n)

/-- Divisions round up by one power of two each, at most. -/
theorem magnitude_scaleDown_lt (fuel : Nat) :
    ∀ {k : Nat} {x : Binary64} {n : Nat}, 53 ≤ k → x.magnitude < 2 ^ k →
      (scaleDown fuel x n).magnitude < 2 ^ (k + fuel) := by
  have hmono {a b : Nat} (h : a ≤ b) : (2 : Nat) ^ a ≤ 2 ^ b := Nat.pow_le_pow_right (by decide) h
  induction fuel with
  | zero => exact fun _ h => h
  | succ fuel ih =>
      intro k x n hk h
      rw [scaleDown]
      split_ifs
      · exact Nat.lt_of_lt_of_le (magnitude_div_lt hk h n) (hmono (by omega))
      · exact Nat.lt_of_lt_of_le h (hmono (by omega))
      · have hexponent : k + (fuel + 1) = k + 1 + fuel := by omega
        rw [hexponent]
        exact ih (Nat.le_succ_of_le hk) (magnitude_div_lt hk h 308)

/-- **A SCALED SIGNIFICAND IS FINITE.** -/
theorem isFinite_of_scaled? {m : Nat} {exponent : Int} {x : Binary64} (hm : m < 2 ^ 64)
    (h : scaled? m exponent = some x) : x.isFinite = true := by
  have hsignificand : (Binary64.ofInt m).magnitude < 2 ^ (64 + 1074 + 1) :=
    magnitude_ofInt_lt (by simpa)
  rw [scaled?] at h
  dsimp only at h
  split_ifs at h with hdown hzero hlarge hfinite
  · obtain rfl := Option.some.inj h
    exact Binary64.isFinite_of_magnitude_lt (by decide)
      (magnitude_scaleDown_lt 4 (by decide) hsignificand)
  · obtain rfl := Option.some.inj h
    exact Binary64.isFinite_of_magnitude_lt (by decide) hsignificand
  · obtain rfl := Option.some.inj h
    exact hfinite

theorem isFinite_negated {x : Binary64} (h : x.isFinite = true) (neg : Bool) :
    (negated neg x).isFinite = true := by
  cases neg with
  | false => exact h
  | true => exact (Binary64.isFinite_ofParts x true).trans h

/-- The value nests at most so deep, its integers have 64 bits, and its doubles are finite. -/
abbrev Bounded (depth : Nat) (j : Json) : Prop := Within (fun x => x.isFinite = true) depth j

/-- A number that is put together from its parts is an integer of 64 bits or a finite
    double. -/
theorem bounded_of_parts {p : NumberParts} {neg : Bool} (h : p.value? neg = some j) :
    Bounded depth j := by
  have hm := significand_lt (p.whole ++ p.fraction) (Nat.two_pow_pos 64)
  rw [NumberParts.value?] at h
  generalize significand 0 (p.whole ++ p.fraction) = s at h hm
  obtain ⟨m, left⟩ := s
  dsimp only at h hm
  -- a double that was read is finite, whatever its sign
  have hreal {neg : Bool} {e : Int}
      (h : (scaled? m e).map (fun x => Json.real (negated neg x)) = some j) : Bounded depth j := by
    obtain ⟨x, hx, rfl⟩ := Option.map_eq_some_iff.mp h
    exact .real (isFinite_negated (isFinite_of_scaled? hm hx) neg)
  cases neg with
  | false =>
      simp only [Bool.false_eq_true, if_false] at h
      split at h
      · obtain rfl := Option.some.inj h
        exact .integer ⟨Int.le_trans (by decide) (Int.natCast_nonneg m), Int.ofNat_lt.mpr hm⟩
      · exact hreal h
  | true =>
      simp only [if_true] at h
      split at h
      · rename_i hinteger
        have hrange : 0 < m ∧ m ≤ 2 ^ 63 := by simpa using (Bool.and_eq_true_iff.mp hinteger).2
        obtain rfl := Option.some.inj h
        exact .integer ⟨by omega, by omega⟩
      · exact hreal h

theorem bounded_of_number? (h : number? cs = some (j, rest)) : Bounded depth j := by
  have hunsigned {neg : Bool} {cs : List Char} (h : unsignedNumber? neg cs = some (j, rest)) :
      Bounded depth j := by
    obtain ⟨⟨p, afterWhole⟩, -, h⟩ := Option.bind_eq_some_iff.mp h
    obtain ⟨⟨q, afterFraction⟩, -, h⟩ := Option.bind_eq_some_iff.mp h
    obtain ⟨⟨r, afterExponent⟩, -, h⟩ := Option.bind_eq_some_iff.mp h
    obtain ⟨value, hvalue, h⟩ := Option.bind_eq_some_iff.mp h
    obtain ⟨rfl, -⟩ := Prod.mk.inj (Option.some.inj h)
    exact bounded_of_parts hvalue
  unfold number? at h
  split at h
  · exact hunsigned h
  · exact hunsigned h

/-! ## Values -/

/-- The bounds are kept by the readers of values, of items and of members with some
    fuel.  The three call each other, so they are followed together. -/
structure KeepsBounds (fuel : Nat) : Prop where
  value : ∀ {depth cs j rest}, value? fuel depth cs = some (j, rest) → Bounded depth j
  items : ∀ {depth acc cs items rest}, (∀ j ∈ acc, Bounded depth j) →
    items? fuel depth acc cs = some (items, rest) → ∀ j ∈ items, Bounded depth j
  members : ∀ {depth acc cs members rest}, (∀ m ∈ acc, Bounded depth m.2) →
    members? fuel depth acc cs = some (members, rest) → ∀ m ∈ members, Bounded depth m.2

theorem KeepsBounds.value_succ (h : KeepsBounds fuel)
    (hread : value? (fuel + 1) depth cs = some (j, rest)) : Bounded depth j := by
  unfold value? at hread
  -- the branches of the reader: constants, a string, an array, an object, a number
  split at hread
  · obtain ⟨_, -, heq⟩ := Option.map_eq_some_iff.mp hread
    obtain ⟨rfl, -⟩ := Prod.mk.inj heq
    exact .null
  · obtain ⟨_, -, heq⟩ := Option.map_eq_some_iff.mp hread
    obtain ⟨rfl, -⟩ := Prod.mk.inj heq
    exact .bool true
  · obtain ⟨_, -, heq⟩ := Option.map_eq_some_iff.mp hread
    obtain ⟨rfl, -⟩ := Prod.mk.inj heq
    exact .bool false
  · obtain ⟨_, -, heq⟩ := Option.map_eq_some_iff.mp hread
    obtain ⟨rfl, -⟩ := Prod.mk.inj heq
    exact .string _
  · split at hread
    · cases hread
    · obtain ⟨rfl, -⟩ := Prod.mk.inj (Option.some.inj hread)
      exact .array (List.forall_mem_nil _)
    · obtain ⟨_, hitems, heq⟩ := Option.map_eq_some_iff.mp hread
      obtain ⟨rfl, -⟩ := Prod.mk.inj heq
      exact .array (h.items (List.forall_mem_nil _) hitems)
  · split at hread
    · cases hread
    · obtain ⟨rfl, -⟩ := Prod.mk.inj (Option.some.inj hread)
      exact .object (List.forall_mem_nil _)
    · obtain ⟨_, hmembers, heq⟩ := Option.map_eq_some_iff.mp hread
      obtain ⟨rfl, -⟩ := Prod.mk.inj heq
      exact .object (h.members (List.forall_mem_nil _) hmembers)
  · exact bounded_of_number? hread

theorem KeepsBounds.items_succ (h : KeepsBounds fuel) {acc items : List Json}
    (hacc : ∀ j ∈ acc, Bounded depth j)
    (hread : items? (fuel + 1) depth acc cs = some (items, rest)) : ∀ j ∈ items, Bounded depth j := by
  rw [items?] at hread
  split at hread
  · cases hread
  · rename_i item more hitem
    have hacc' : ∀ j ∈ item :: acc, Bounded depth j :=
      List.forall_mem_cons.mpr ⟨h.value hitem, hacc⟩
    split at hread
    · exact h.items hacc' hread
    · obtain ⟨rfl, -⟩ := Prod.mk.inj (Option.some.inj hread)
      exact fun j hj => hacc' j (List.mem_reverse.mp hj)
    · cases hread

theorem KeepsBounds.members_succ (h : KeepsBounds fuel) {acc members : List (String × Json)}
    (hacc : ∀ m ∈ acc, Bounded depth m.2)
    (hread : members? (fuel + 1) depth acc cs = some (members, rest)) :
    ∀ m ∈ members, Bounded depth m.2 := by
  unfold members? at hread
  split at hread
  · split at hread
    · cases hread
    · split at hread
      · split at hread
        · cases hread
        · rename_i value more hvalue
          -- the member that was read keeps the bound, like those gathered before
          have hacc' {name : String} : ∀ m ∈ (name, value) :: acc, Bounded depth m.2 :=
            List.forall_mem_cons.mpr ⟨h.value hvalue, hacc⟩
          split at hread
          · exact h.members hacc' hread
          · obtain ⟨rfl, -⟩ := Prod.mk.inj (Option.some.inj hread)
            exact fun m hm => hacc' m (List.mem_reverse.mp hm)
          · cases hread
      · cases hread
  · cases hread

theorem keepsBounds (fuel : Nat) : KeepsBounds fuel := by
  induction fuel with
  | zero => exact ⟨(fun h => nomatch h), (fun _ h => nomatch h), (fun _ h => nomatch h)⟩
  | succ fuel ih => exact ⟨ih.value_succ, ih.items_succ, ih.members_succ⟩

/-- **WHAT IS PARSED KEEPS THE BOUNDS** of the reader.  A text that nests too deep, or
    has a number out of range, is not parsed. -/
theorem bounded_of_parse? {s : String} (h : parse? s = some j) : Bounded maxDepth j := by
  rw [parse?] at h
  split at h
  · rename_i value rest hvalue
    split at h
    · obtain rfl := Option.some.inj h
      exact (keepsBounds _).value hvalue
    · cases h
  · cases h

end Gridbase.Json
