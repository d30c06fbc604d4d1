import Gridbase.Proofs.FirstMatch
import Gridbase.Proofs.Text
import Gridbase.Row
import Mathlib.Data.Finset.Card

/-! # Rows — entries by name

    A row is made by calls: an entry is set, or the row is collected anew from pairs.  Only what was
    SET since the row was last begun counts (`Row.sets`), and of that a row is a map: the value of
    a name is the one that was set last, and the names stand in the order of their first use, as
    they were spelled then (`made_isMap`).

    Each law has a step, for one more entry (`get?_set`, `names_set`), and is proved from it for all
    that was set, from the last entry back. -/

namespace Gridbase.Row

open Gridbase.Text

/-! ## One entry -/

theorem setEntry_of_new {name : String} {entries : List Entry}
    (h : ∀ e ∈ entries, sameName e.name name = false) (v : Value) :
    setEntry name v entries = entries ++ [⟨name, v⟩] := by
  induction entries with
  | nil => rfl
  | cons e entries ih =>
      rw [setEntry, h e (List.mem_cons_self ..), ih fun x hx => h x (List.mem_cons_of_mem _ hx)]
      rfl

/-- To set a name is to write its entry. -/
theorem entries_set (row : Row) (name : String) (v : Value) :
    (row.set name v).entries
      = putFirst (fun e => sameName e.name name) (fun e => { e with value := v }) ⟨name, v⟩
          row.entries := by
  have hset : ∀ entries : List Entry, setEntry name v entries
      = putFirst (fun e => sameName e.name name) (fun e => { e with value := v }) ⟨name, v⟩
          entries := by
    intro entries
    induction entries with
    | nil => rfl
    | cons e entries ih => rw [setEntry, putFirst, ih]
  exact hset row.entries

theorem get?_congr {a b : String} (h : sameName a b = true) (row : Row) :
    row.get? a = row.get? b := by
  have hsame : (fun e : Entry => sameName e.name a) = fun e : Entry => sameName e.name b := by
    funext e
    rw [sameName_comm, sameName_congr h, sameName_comm]
  rw [get?, get?, hsame]

/-- An entry keeps its name. -/
theorem sameName_withValue (name : String) (v : Value) :
    ∀ e : Entry, sameName e.name name = true → sameName { e with value := v }.name name = true :=
  fun _ h => h

theorem sameName_new (name : String) (v : Value) : sameName (Entry.mk name v).name name = true :=
  sameName_refl name

/-- **THE VALUE THAT WAS SET** is found under its name, and under others what was there before. -/
theorem get?_set (row : Row) (name : String) (v : Value) (other : String) :
    (row.set name v).get? other = if sameName name other then some v else row.get? other := by
  cases hsame : sameName name other with
  | true =>
      rw [← get?_congr hsame, if_pos rfl, get?, entries_set]
      exact find?_putFirst (sameName_withValue name v) (sameName_new name v) (fun _ => rfl) rfl
        row.entries
  | false =>
      have hapart : ∀ e : Entry, sameName e.name name = true → sameName e.name other = false := by
        intro e he
        rw [sameName_congr he, hsame]
      have hwritten : ∀ e : Entry, sameName e.name name = true →
          sameName { e with value := v }.name other = false := hapart
      have hnew : sameName (Entry.mk name v).name other = false := hsame
      rw [if_neg Bool.false_ne_true, get?, entries_set,
        find?_putFirst_of_apart hapart hwritten hnew]
      rfl

theorem contains_eq_any (row : Row) (name : String) :
    row.contains name = row.entries.any fun e => sameName e.name name := by
  rw [contains, get?, Option.isSome_map, Bool.eq_iff_iff, List.find?_isSome, List.any_eq_true]

/-- A new name comes last, and a known one keeps its spelling and its place. -/
theorem names_set (row : Row) (name : String) (v : Value) :
    (row.set name v).names = if row.contains name then row.names else row.names ++ [name] := by
  have hnames := map_putFirst (p := fun e => sameName e.name name)
    (f := fun e => { e with value := v }) (a := ⟨name, v⟩) (g := Entry.name) (fun _ _ => rfl)
    row.entries
  rw [contains_eq_any, names, entries_set, hnames]
  rfl

/-- The entries of other names are the same before and after, each in its place. -/
def OthersStay (name : String) (before after : Row) : Prop :=
  ∀ (i : Nat) (e : Entry), sameName e.name name = false →
    (after.entries[i]? = some e ↔ before.entries[i]? = some e)

theorem othersStay_set (row : Row) (name : String) (v : Value) :
    OthersStay name row (row.set name v) := by
  intro i e he
  rw [entries_set]
  exact getElem?_putFirst (c := e) (sameName_withValue name v) (sameName_new name v) he
    row.entries i

/-! ## Rows that are collected -/

theorem ofList_concat (pairs : List (String × Value)) (p : String × Value) :
    ofList (pairs ++ [p]) = (ofList pairs).set p.1 p.2 := by
  rw [ofList, List.foldl_concat]
  rfl

/-- **A ROW OF DISTINCT NAMES** has the entries that it is made of. -/
theorem entries_ofList {pairs : List (String × Value)}
    (h : pairs.Pairwise fun a b => sameName a.1 b.1 = false) :
    (ofList pairs).entries = pairs.map fun p => ⟨p.1, p.2⟩ := by
  induction pairs using List.reverseRecOn with
  | nil => rfl
  | append_singleton pairs p ih =>
      obtain ⟨hpairs, -, hlast⟩ := List.pairwise_append.mp h
      have hnew : ∀ e ∈ (ofList pairs).entries, sameName e.name p.1 = false := by
        intro e he
        rw [ih hpairs] at he
        obtain ⟨q, hq, rfl⟩ := List.mem_map.mp he
        exact hlast q hq p (List.mem_singleton_self p)
      rw [ofList_concat]
      show setEntry p.1 p.2 (ofList pairs).entries = _
      rw [setEntry_of_new hnew, ih hpairs, List.map_append]
      rfl

/-- A collected row has no names but those of its pairs. -/
theorem names_ofList_subset (pairs : List (String × Value)) :
    (ofList pairs).names ⊆ pairs.map Prod.fst := by
  induction pairs using List.reverseRecOn with
  | nil => exact List.Subset.refl _
  | append_singleton pairs p ih =>
      rw [ofList_concat, names_set, List.map_append]
      split
      · exact List.subset_append_of_subset_left _ ih
      · exact List.append_subset.mpr
          ⟨List.subset_append_of_subset_left _ ih, List.subset_append_right ..⟩

/-- The value that a name was given last, in whatever spelling. -/
def lastValue? (pairs : List (String × Value)) (name : String) : Option Value :=
  (pairs.reverse.find? fun p => sameName p.1 name).map Prod.snd

theorem lastValue?_concat (pairs : List (String × Value)) (p : String × Value) (name : String) :
    lastValue? (pairs ++ [p]) name
      = if sameName p.1 name then some p.2 else lastValue? pairs name := by
  rw [lastValue?, List.reverse_concat, List.find?_cons]
  cases sameName p.1 name <;> rfl

theorem isSome_lastValue? (pairs : List (String × Value)) (name : String) :
    (lastValue? pairs name).isSome = pairs.any fun p => sameName p.1 name := by
  rw [lastValue?, Option.isSome_map, Bool.eq_iff_iff, List.find?_isSome, List.any_eq_true]
  simp only [List.mem_reverse]

theorem get?_ofList (pairs : List (String × Value)) (name : String) :
    (ofList pairs).get? name = lastValue? pairs name := by
  induction pairs using List.reverseRecOn with
  | nil => rfl
  | append_singleton pairs p ih => rw [ofList_concat, get?_set, lastValue?_concat, ih]

theorem contains_ofList (pairs : List (String × Value)) (name : String) :
    (ofList pairs).contains name = pairs.any fun p => sameName p.1 name := by
  rw [contains, get?_ofList, isSome_lastValue?]

/-- The names as they were first spelled, in the order of their first use.  Later
    spellings change neither. -/
def firstSpellings (names : List String) : List String := names.eraseDupsBy sameName

theorem firstSpellings_cons (name : String) (names : List String) :
    firstSpellings (name :: names)
      = name :: firstSpellings (names.filter fun b => decide (sameName b name = false)) :=
  List.eraseDupsBy_cons

/-- One more name counts if it is not among the names so far.  This is the step by which
    a row grows. -/
theorem firstSpellings_concat (name : String) :
    ∀ names : List String, firstSpellings (names ++ [name])
      = if names.any (fun b => sameName b name) then firstSpellings names
        else firstSpellings names ++ [name]
  | [] => rfl
  | first :: names => by
      -- the names that `first` leaves are fewer, and `name` is among them as among all
      rw [List.cons_append, firstSpellings_cons, firstSpellings_cons, List.filter_append,
        List.any_cons]
      cases hsame : sameName first name with
      | true =>
          rw [List.filter_cons_of_neg (by simp [sameName_comm name, hsame]), List.filter_nil,
            List.append_nil]
          rfl
      | false =>
          have hany : (names.filter fun b => decide (sameName b first = false)).any
              (fun b => sameName b name) = names.any fun b => sameName b name := by
            rw [List.any_filter]
            refine congrArg (List.any names) (funext fun b => ?_)
            cases hb : sameName b name with
            | false => exact Bool.and_false _
            | true =>
                have hapart : sameName b first = false := by
                  rw [sameName_congr hb, sameName_comm, hsame]
                simp [hapart]
          rw [List.filter_cons_of_pos (by simp [sameName_comm name, hsame]), List.filter_nil,
            firstSpellings_concat name, hany, Bool.false_or]
          split <;> rfl
  termination_by names => names.length
  decreasing_by exact Nat.lt_succ_of_le (List.length_filter_le ..)

theorem names_ofList (pairs : List (String × Value)) :
    (ofList pairs).names = firstSpellings (pairs.map Prod.fst) := by
  induction pairs using List.reverseRecOn with
  | nil => rfl
  | append_singleton pairs p ih =>
      rw [ofList_concat, names_set, contains_ofList, ih, List.map_append, List.map_singleton,
        firstSpellings_concat, List.any_map]
      rfl

/-- The names of a collected row differ. -/
theorem distinct_ofList (pairs : List (String × Value)) :
    (ofList pairs).names.Pairwise fun a b => sameName a b = false := by
  induction pairs using List.reverseRecOn with
  | nil => exact .nil
  | append_singleton pairs p ih =>
      rw [ofList_concat, names_set]
      cases hnew : (ofList pairs).contains p.1 with
      | true => exact ih
      | false =>
          rw [if_neg Bool.false_ne_true]
          refine List.pairwise_append.mpr ⟨ih, List.pairwise_singleton .., ?_⟩
          rintro a ha b hb
          rw [contains_eq_any, List.any_eq_false] at hnew
          obtain ⟨e, he, rfl⟩ := List.mem_map.mp ha
          rw [List.mem_singleton.mp hb]
          simpa using hnew e he

/-! ## Rows as maps -/

/-- The row is the map of what was set, in this order: one entry for each name up to
    case, spelled as it was first and with the value that it was given last. -/
structure IsMap (pairs : List (String × Value)) (row : Row) : Prop where
  distinct : row.names.Pairwise fun a b => sameName a b = false
  names : row.names = firstSpellings (pairs.map Prod.fst)
  get? : ∀ name, row.get? name = lastValue? pairs name
  contains : ∀ name, row.contains name = true ↔ ∃ p ∈ pairs, sameName p.1 name = true
  length : row.length = (pairs.map fun p => lower p.1.toList).toFinset.card
  isEmpty : row.isEmpty = true ↔ pairs = []

/-- The row has as many entries as names were set that differ in more than case.  They
    are counted by their lower case. -/
theorem length_ofList (pairs : List (String × Value)) :
    (ofList pairs).length = (pairs.map fun p => lower p.1.toList).toFinset.card := by
  have hnodup : ((ofList pairs).names.map fun name => lower name.toList).Nodup := by
    refine List.pairwise_map.mpr ((distinct_ofList pairs).imp fun {a b} hapart hsame => ?_)
    rw [sameName_iff.mpr hsame] at hapart
    exact Bool.false_ne_true hapart.symm
  -- the same names up to case on both sides
  have hsets : ((ofList pairs).names.map fun name => lower name.toList).toFinset
      = (pairs.map fun p => lower p.1.toList).toFinset := by
    ext folded
    simp only [List.mem_toFinset, List.mem_map]
    constructor
    · rintro ⟨name, hname, rfl⟩
      obtain ⟨e, he, rfl⟩ := List.mem_map.mp hname
      have hany : (ofList pairs).contains e.name = true := by
        rw [contains_eq_any, List.any_eq_true]
        exact ⟨e, he, sameName_refl e.name⟩
      rw [contains_ofList, List.any_eq_true] at hany
      obtain ⟨p, hp, hsame⟩ := hany
      exact ⟨p, hp, sameName_iff.mp hsame⟩
    · rintro ⟨p, hp, rfl⟩
      have hany : (ofList pairs).contains p.1 = true := by
        rw [contains_ofList, List.any_eq_true]
        exact ⟨p, hp, sameName_refl p.1⟩
      rw [contains_eq_any, List.any_eq_true] at hany
      obtain ⟨e, he, hsame⟩ := hany
      exact ⟨e.name, List.mem_map.mpr ⟨e, he, rfl⟩, sameName_iff.mp hsame⟩
  rw [← hsets, List.toFinset_card_of_nodup hnodup, List.length_map, names, List.length_map]
  rfl

theorem isMap_ofList (pairs : List (String × Value)) : IsMap pairs (ofList pairs) where
  distinct := distinct_ofList pairs
  names := names_ofList pairs
  get? := get?_ofList pairs
  contains name := by rw [contains_ofList, List.any_eq_true]
  length := length_ofList pairs
  isEmpty := by
    cases pairs with
    | nil => exact ⟨fun _ => rfl, fun _ => rfl⟩
    | cons p pairs =>
        have hpos : 0 < (ofList (p :: pairs)).length := by
          rw [length_ofList]
          exact Finset.card_pos.mpr ⟨lower p.1.toList, by simp⟩
        refine ⟨fun h => ?_, fun h => nomatch h⟩
        rw [isEmpty, List.isEmpty_iff_length_eq_zero] at h
        exact absurd h (Nat.ne_of_gt hpos)

/-! ## Calls -/

/-- A call that makes a row: an entry is set, in place or in a chain of calls, or a new row is
    collected from pairs. -/
inductive Call
  | set (name : String) (value : Value)
  | chained (name : String) (value : Value)
  | collect (pairs : List (String × Value))
deriving DecidableEq

/-- The row after one more call.  A collected row takes the place of the row so far. -/
def call (row : Row) : Call → Row
  | .set name value => row.set name value
  | .chained name value => row.set name value
  | .collect pairs => ofList pairs

/-- The row that calls make of the empty one, the first call first. -/
def made (calls : List Call) : Row := calls.foldl call empty

/-- What is set after one more call; a collected row is a new one. -/
def Call.sets (pairs : List (String × Value)) : Call → List (String × Value)
  | .set name value => pairs ++ [(name, value)]
  | .chained name value => pairs ++ [(name, value)]
  | .collect collected => collected

/-- What calls set in their row. -/
def sets (calls : List Call) : List (String × Value) := calls.foldl Call.sets []

theorem call_ofList (pairs : List (String × Value)) (c : Call) :
    (ofList pairs).call c = ofList (c.sets pairs) := by
  cases c with
  | set name value => exact (ofList_concat pairs (name, value)).symm
  | chained name value => exact (ofList_concat pairs (name, value)).symm
  | collect collected => rfl

theorem made_eq (calls : List Call) : made calls = ofList (sets calls) := by
  induction calls using List.reverseRecOn with
  | nil => rfl
  | append_singleton calls c ih =>
      have hmade : made (calls ++ [c]) = (made calls).call c := List.foldl_concat ..
      have hsets : sets (calls ++ [c]) = c.sets (sets calls) := List.foldl_concat ..
      rw [hmade, ih, call_ofList, hsets]

/-- **A ROW IS A MAP THAT KEEPS THE ORDER OF ITS NAMES.**  After any calls, beginning with the empty
    row, no two names are the same, each is listed as it was first spelled and where it was first
    used, and has the value that it was given last; and to set a name changes no entry of another
    one. -/
theorem made_isMap (calls : List Call) :
    IsMap (sets calls) (made calls)
      ∧ ∀ name v, OthersStay name (made calls) ((made calls).set name v) := by
  refine ⟨?_, fun name v => othersStay_set _ name v⟩
  rw [made_eq]
  exact isMap_ofList (sets calls)

example : (made [.set "a" (.int 1), .chained "b" (.int 2), .set "A" (.int 10)]).entries
    = [⟨"a", .int 10⟩, ⟨"b", .int 2⟩] := by decide

end Gridbase.Row
