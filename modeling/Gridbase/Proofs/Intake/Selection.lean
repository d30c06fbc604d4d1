import Gridbase.Intake
import Gridbase.Proofs.Text

/-! # What the headers choose

    `select` goes through the headers one by one and keeps what it has chosen so
    far.  What it keeps has a closed form: the headers that name a column, each
    with the first column that it names, and of these the first use of every
    column (`select_kept`).

    Uses are told apart by the PLACE of the column.  As every header takes the
    first column of a name, different places mean different names
    (`firstUses_distinct`), although the columns may repeat a name. -/

namespace Gridbase.Intake

open Gridbase.Text

/-! ## Names -/

/-- Two kept headers choose one column, whatever their texts are. -/
def sameColumn (a b : Kept) : Bool := b.place == a.place

/-- The headers that name a column, each with the first column that it names. -/
def matched (columns : List ColumnInfo) (hs : List Header) : List Kept :=
  hs.filterMap fun h => (named? columns h).map fun c => ⟨h, c.1, c.2⟩

/-- The first use of every column.  A later header for the same column is not kept. -/
def firstUses (ks : List Kept) : List Kept := ks.eraseDupsBy sameColumn

theorem firstUses_cons (k : Kept) (ks : List Kept) :
    firstUses (k :: ks) = k :: firstUses (ks.filter fun m => !(k.place == m.place)) := by
  rw [firstUses, List.eraseDupsBy_cons]
  refine congrArg (fun p => k :: (ks.filter p).eraseDupsBy sameColumn) (funext fun m => ?_)
  cases h : k.place == m.place <;> simp [sameColumn, h]

/-! ## The selection -/

theorem Selection.uses_append (s : Selection) (k : Kept) (place : Nat) :
    Selection.uses { s with kept := s.kept ++ [k] } place
      = (s.uses place || k.place == place) := by
  simp [Selection.uses]

/-- A header without a column is noted as unknown. -/
theorem Selection.add_unknown {columns : List ColumnInfo} {h : Header}
    (hn : named? columns h = none) (s : Selection) :
    s.add columns h = { s with unknown := s.unknown ++ [h] } := by
  rw [Selection.add, hn]

/-- A header whose column has been chosen is noted as repeated. -/
theorem Selection.add_repeated {columns : List ColumnInfo} {h : Header} {info : ColumnInfo}
    {place : Nat} (hn : named? columns h = some (info, place)) {s : Selection}
    (huses : s.uses place = true) :
    s.add columns h = { s with repeated := s.repeated ++ [h] } := by
  rw [Selection.add, hn]
  exact if_pos huses

/-- A header whose column is new is kept. -/
theorem Selection.add_new {columns : List ColumnInfo} {h : Header} {info : ColumnInfo}
    {place : Nat} (hn : named? columns h = some (info, place)) {s : Selection}
    (huses : ¬ s.uses place = true) :
    s.add columns h = { s with kept := s.kept ++ [⟨h, info, place⟩] } := by
  rw [Selection.add, hn]
  exact if_neg huses

/-- A header without a column matches nothing. -/
theorem matched_cons_none {columns : List ColumnInfo} {h : Header} (hn : named? columns h = none)
    (hs : List Header) : matched columns (h :: hs) = matched columns hs := by
  rw [matched, List.filterMap_cons, hn]
  rfl

/-- A header with a column matches it. -/
theorem matched_cons_some {columns : List ColumnInfo} {h : Header} {info : ColumnInfo}
    {place : Nat} (hn : named? columns h = some (info, place)) (hs : List Header) :
    matched columns (h :: hs) = ⟨h, info, place⟩ :: matched columns hs := by
  rw [matched, List.filterMap_cons, hn]
  rfl

/-- **ONE HEADER AFTER THE OTHER**: from a selection on, the headers add the first
    uses of the columns that it does not have. -/
theorem foldl_add_kept (columns : List ColumnInfo) (hs : List Header) :
    ∀ s : Selection, (hs.foldl (Selection.add columns) s).kept
      = s.kept ++ firstUses ((matched columns hs).filter fun k => !s.uses k.place) := by
  induction hs with
  | nil => intro s; exact (List.append_nil _).symm
  | cons h hs ih =>
      intro s
      rw [List.foldl_cons, ih]
      cases hn : named? columns h with
      | none =>
          rw [matched_cons_none hn, Selection.add_unknown hn]
          rfl
      | some chosen =>
          obtain ⟨info, place⟩ := chosen
          rw [matched_cons_some hn]
          by_cases huses : s.uses place = true
          · -- the column stands in `s.kept`, so its head is filtered out as well
            rw [Selection.add_repeated hn huses, List.filter_cons_of_neg (by simp [huses])]
            rfl
          · rw [Selection.add_new hn huses, List.filter_cons_of_pos (by simp [huses]),
              firstUses_cons, List.filter_filter, List.append_assoc, List.singleton_append]
            refine congrArg
              (fun p => s.kept ++ ⟨h, info, place⟩ :: firstUses ((matched columns hs).filter p))
              (funext fun k => ?_)
            rw [Selection.uses_append, Bool.not_or, Bool.and_comm]

/-- **THE KEPT HEADERS** are the first uses of the columns that are named.  The reader
    keeps a list of places that are used; this says what it amounts to. -/
theorem select_kept (columns : List ColumnInfo) (hs : List Header) :
    (select columns hs).kept = firstUses (matched columns hs) := by
  have hall : ∀ ks : List Kept, (ks.filter fun k => !Selection.uses {} k.place) = ks :=
    fun ks => List.filter_eq_self.mpr fun _ _ => rfl
  rw [select, foldl_add_kept, hall]
  rfl

/-! ## What is kept -/

theorem firstUses_sublist (ks : List Kept) : (firstUses ks).Sublist ks := by
  cases ks with
  | nil => exact .slnil
  | cons k ks =>
      rw [firstUses_cons]
      exact .cons_cons k ((firstUses_sublist _).trans List.filter_sublist)
termination_by ks.length
decreasing_by exact Nat.lt_succ_of_le (List.length_filter_le ..)

/-- No two first uses choose one column. -/
theorem firstUses_pairwise (ks : List Kept) :
    (firstUses ks).Pairwise fun a b => a.place ≠ b.place := by
  cases ks with
  | nil => exact .nil
  | cons k ks =>
      rw [firstUses_cons]
      refine .cons ?_ (firstUses_pairwise _)
      -- what comes after `k` has passed the filter on its place
      intro m hm
      have hnew := (List.mem_filter.mp ((firstUses_sublist _).mem hm)).2
      simpa using hnew
termination_by ks.length
decreasing_by exact Nat.lt_succ_of_le (List.length_filter_le ..)

/-- Uses of different columns are all first uses. -/
theorem firstUses_of_pairwise {ks : List Kept} (h : ks.Pairwise fun a b => a.place ≠ b.place) :
    firstUses ks = ks := by
  induction ks with
  | nil => rfl
  | cons k ks ih =>
      obtain ⟨hk, hrest⟩ := List.pairwise_cons.mp h
      have hall : (ks.filter fun m => !(k.place == m.place)) = ks := by
        refine List.filter_eq_self.mpr fun m hm => ?_
        simpa using hk m hm
      rw [firstUses_cons, hall, ih hrest]

/-- A header that is kept stands among the headers, and has the column that it
    names. -/
theorem named_of_mem_matched {columns : List ColumnInfo} {hs : List Header} {k : Kept}
    (h : k ∈ matched columns hs) :
    k.header ∈ hs ∧ named? columns k.header = some (k.info, k.place) := by
  obtain ⟨header, hheader, hk⟩ := List.mem_filterMap.mp h
  obtain ⟨⟨info, place⟩, hinfo, rfl⟩ := Option.map_eq_some_iff.mp hk
  exact ⟨hheader, hinfo⟩

/-! ## First columns of a name -/

/-- The first column of a name, and its place.  Later columns of the same name can never
    be chosen. -/
structure FirstNamed (columns : List ColumnInfo) (name : String) (info : ColumnInfo)
    (place : Nat) : Prop where
  at_place : columns[place]? = some info
  named : sameName info.name name = true
  first : ∀ j < place, ∀ c, columns[j]? = some c → sameName c.name name = false

/-- What a header names is the first column of its name. -/
theorem firstNamed_of_named {columns : List ColumnInfo} {h : Header} {info : ColumnInfo}
    {place : Nat} (hn : named? columns h = some (info, place)) :
    FirstNamed columns (trimmed h.text) info place := by
  obtain ⟨hsame, i, hi, hat, hfirst⟩ := List.find?_eq_some_iff_getElem.mp hn
  rw [List.getElem_zipIdx, Prod.mk.injEq] at hat
  obtain ⟨hinfo, hplace⟩ := hat
  rw [List.length_zipIdx] at hi
  rw [Nat.zero_add] at hplace
  subst hplace
  refine ⟨List.getElem?_eq_some_iff.mpr ⟨hi, hinfo⟩, hsame, ?_⟩
  intro j hj c hc
  obtain ⟨hlt, rfl⟩ := List.getElem?_eq_some_iff.mp hc
  have hnot := hfirst j hj
  rw [List.getElem_zipIdx] at hnot
  simpa using hnot

namespace FirstNamed

variable {columns : List ColumnInfo} {name name' : String} {a b : ColumnInfo} {i j : Nat}

/-- A column of the same name does not come earlier. -/
theorem place_le (ha : FirstNamed columns name a i) (hb : FirstNamed columns name' b j)
    (h : sameName a.name b.name = true) : j ≤ i := by
  refine Nat.le_of_not_lt fun hij => ?_
  have hother := hb.first i hij a ha.at_place
  rw [sameName_congr h, hb.named] at hother
  exact nomatch hother

/-- **FIRST COLUMNS AT DIFFERENT PLACES** have different names. -/
theorem name_ne (ha : FirstNamed columns name a i) (hb : FirstNamed columns name' b j)
    (h : i ≠ j) : sameName a.name b.name = false := by
  rw [Bool.eq_false_iff]
  intro hsame
  have hji := ha.place_le hb hsame
  have hij := hb.place_le ha (by rwa [sameName_comm])
  exact h (Nat.le_antisymm hij hji)

/-- The first column of a name is the first one of its own name. -/
theorem find?_eq (h : FirstNamed columns name a i) :
    columns.find? (fun c => sameName c.name a.name) = some a := by
  obtain ⟨hlt, hat⟩ := List.getElem?_eq_some_iff.mp h.at_place
  refine List.find?_eq_some_iff_getElem.mpr ⟨sameName_refl a.name, i, hlt, hat, ?_⟩
  intro j hj
  have hbefore := h.first j hj _ (List.getElem?_eq_getElem (Nat.lt_trans hj hlt))
  rw [sameName_comm, sameName_congr h.named, sameName_comm, hbefore]
  rfl

end FirstNamed

/-- **THE FIRST USES HAVE DISTINCT NAMES.** -/
theorem firstUses_distinct (columns : List ColumnInfo) (hs : List Header) :
    (firstUses (matched columns hs)).Pairwise
      fun a b => sameName a.info.name b.info.name = false := by
  refine (firstUses_pairwise _).imp_of_mem ?_
  intro a b ha hb hplace
  have hfirst {k : Kept} (hk : k ∈ firstUses (matched columns hs)) :
      FirstNamed columns (trimmed k.header.text) k.info k.place :=
    firstNamed_of_named (named_of_mem_matched ((firstUses_sublist _).mem hk)).2
  exact (hfirst ha).name_ne (hfirst hb) hplace

end Gridbase.Intake
