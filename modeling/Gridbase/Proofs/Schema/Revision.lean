import Gridbase.Proofs.Schema.Validity
import Gridbase.Proofs.Text.Lead
import Gridbase.Schema.Revision
import Mathlib.Data.List.Basic

/-! # Revised designs

    A revision is checked against the names of the columns alone.  What the checks are worth is
    seen on the design that the changes make of a valid one.

    * A change is carried out on the columns of a design: the new one comes last, an altered or
      renamed one keeps its place (`Revision.revise`).
    * The names that the checks keep TRACK the columns if they are the same names up to their
      case, and the columns are valid and distinct by name (`Tracks`).  An accepted change keeps
      this (`Tracks.revise`), and so does an accepted list of changes, by induction
      (`Tracks.reviseAll`).
    * The rules that are not on names have no check.  What becomes of them is counted: the columns
      (`length_reviseAll`), the generated ones (`forall_mem_reviseAll`) and the keys
      (`countP_reviseAll_le`).
    * A change that is refused is told in words of its own, with the name that it is refused for
      (`RevisionFault.message_injective`). -/

namespace Gridbase

open Gridbase.Text

/-! ## What is said of a fault -/

namespace RevisionFault

/-- How the messages begin.  None of these texts begins with another. -/
def leads : List String :=
  ["Table name", "No column", "Column name '", "Column '", "A column with the new name '"]

/-- The place of the lead of a fault.  A name that is there already and one that is not there
    have the same. -/
def kind : RevisionFault → Nat
  | blankTable => 0
  | noChanges => 1
  | invalidName _ => 2
  | nameTaken _ | unknownColumn _ => 3
  | newNameTaken _ => 4

theorem begins_message (fault : RevisionFault) :
    Begins fault.message (leads.getD fault.kind "") := by
  cases fault with
  | blankTable | noChanges => exact ⟨_, rfl⟩
  | invalidName | nameTaken | unknownColumn | newNameTaken => exact begins_append₂ ..

theorem kind_lt (fault : RevisionFault) : fault.kind < leads.length := by
  cases fault <;> exact Nat.le_of_ble_eq_true rfl

/-- A name that is there already is not told like one that is not there. -/
theorem message_nameTaken_ne (a b : String) :
    (nameTaken a).message ≠ (unknownColumn b).message :=
  ne_of_ends (by decide +kernel) (by decide +kernel)

/-- **REFUSALS ARE TOLD APART** by their messages.  Two kinds that begin alike end
    differently, and what is quoted can be told from the words around it. -/
theorem message_injective : Function.Injective message := by
  intro a b h
  have hkind : a.kind = b.kind :=
    eq_of_leads (by decide +kernel) a.kind_lt b.kind_lt (begins_message a)
      (h ▸ begins_message b)
  cases a <;> cases b <;> first
    | rfl
    | exact congrArg _ (eq_of_between h)
    | exact absurd h (message_nameTaken_ne _ _)
    | exact absurd h.symm (message_nameTaken_ne _ _)
    | cases hkind

end RevisionFault

/-! ## Carrying out changes -/

namespace Revision

/-- The columns after a change.  An altered column takes the whole definition, with its
    spelling of the name; a renamed one keeps everything else. -/
def revise : Revision → List ColumnDesign → List ColumnDesign
  | add c, columns => columns ++ [c]
  | alter c, columns => columns.map fun x => if sameName x.name c.name then c else x
  | drop name, columns => columns.filter fun x => !sameName x.name name
  | rename old new, columns =>
      columns.map fun x => if sameName x.name old then { x with name := new } else x

/-- The columns after changes in order. -/
def reviseAll (columns : List ColumnDesign) (changes : List Revision) : List ColumnDesign :=
  changes.foldl (fun columns change => change.revise columns) columns

/-- The column that a change defines, if it defines one. -/
def design? : Revision → Option ColumnDesign
  | add c | alter c => some c
  | drop _ | rename .. => none

/-- The change adds a column. -/
def adds : Revision → Bool
  | add _ => true
  | alter _ | drop _ | rename .. => false

/-- The change removes a column. -/
def drops : Revision → Bool
  | drop _ => true
  | add _ | alter _ | rename .. => false

end Revision

namespace TableRevision

/-- The columns that the changes define, in order.  These are the ones that can break a
    rule that is not on names. -/
def designs (r : TableRevision) : List ColumnDesign := r.changes.filterMap Revision.design?

end TableRevision

/-- The design after the changes of a revision. -/
def TableDesign.revised (t : TableDesign) (r : TableRevision) : TableDesign where
  tableName := t.tableName
  columns := Revision.reviseAll t.columns r.changes

namespace Revision

/-! ## Names -/

theorem isColumn_iff {names : List String} {name : String} :
    isColumn names name = true ↔ ∃ a ∈ names, sameName a name = true := List.any_eq_true

theorem isColumn_map_iff {columns : List ColumnDesign} {name : String} :
    isColumn (columns.map ColumnDesign.name) name = true
      ↔ ∃ c ∈ columns, sameName c.name name = true := by
  rw [isColumn, List.any_map, List.any_eq_true]
  rfl

theorem isColumn_singleton (a name : String) : isColumn [a] name = sameName a name := by
  simp [isColumn]

theorem isColumn_eq_false {names : List String} {name : String} :
    isColumn names name = false ↔ ∀ a ∈ names, sameName a name = false := by
  simp [isColumn]

theorem isColumn_append (names more : List String) (name : String) :
    isColumn (names ++ more) name = (isColumn names name || isColumn more name) :=
  List.any_append ..

/-- A removed name is no column any more, and all others are what they were. -/
theorem isColumn_without (names : List String) (removed name : String) :
    isColumn (without names removed) name
      = (isColumn names name && !sameName removed name) := by
  have hsame {a : String} (ha : sameName a name = true) :
      sameName a removed = sameName removed name := by
    rw [sameName_congr ha, sameName_comm]
  rw [Bool.eq_iff_iff, Bool.and_eq_true, isColumn_iff, isColumn_iff]
  constructor
  · rintro ⟨a, ha, hname⟩
    obtain ⟨ha, hkept⟩ := List.mem_filter.mp ha
    exact ⟨⟨a, ha, hname⟩, by rwa [hsame hname] at hkept⟩
  · rintro ⟨⟨a, ha, hname⟩, hkept⟩
    exact ⟨a, List.mem_filter.mpr ⟨ha, by rwa [hsame hname]⟩, hname⟩

/-! ## Accepted changes -/

/-- A change that is accepted against names, and the names after it.  Only new names
    have to be valid; the name of an altered column has to be known. -/
inductive Accepted (d : Dialect) (names : List String) : Revision → List String → Prop
  | add {c : ColumnDesign} (valid : d.isValidName c.name = true)
      (new : isColumn names c.name = false) : Accepted d names (.add c) (names ++ [c.name])
  | alter {c : ColumnDesign} (known : isColumn names c.name = true) :
      Accepted d names (.alter c) names
  | drop {name : String} (known : isColumn names name = true) :
      Accepted d names (.drop name) (without names name)
  | rename {old new : String} (known : isColumn names old = true)
      (valid : d.isValidName new = true) (fresh : isColumn names new = false) :
      Accepted d names (.rename old new) (without names old ++ [new])

/-- **EVERY CHANGE THAT GOES THROUGH IS ACCEPTED** for one of four reasons.  The four
    are the constructors of `Accepted`, with what each of them asks for. -/
theorem accepted_of_apply {d : Dialect} {names names' : List String} {change : Revision}
    (h : change.apply d names = .ok names') : Accepted d names change names' := by
  -- the guards of each change, read as what they let through
  cases change with
  | add c =>
      rw [apply] at h
      split at h
      · cases h
      · rename_i hvalid
        split at h
        · cases h
        · rename_i hnew
          cases h
          exact .add (by simpa using hvalid) (by simpa using hnew)
  | alter c =>
      rw [apply] at h
      split at h
      · cases h
      · rename_i hknown
        cases h
        exact .alter (by simpa using hknown)
  | drop name =>
      rw [apply] at h
      split at h
      · cases h
      · rename_i hknown
        cases h
        exact .drop (by simpa using hknown)
  | rename old new =>
      rw [apply] at h
      split at h
      · cases h
      · rename_i hknown
        split at h
        · cases h
        · rename_i hvalid
          split at h
          · cases h
          · rename_i hfresh
            cases h
            exact .rename (by simpa using hknown) (by simpa using hvalid) (by simpa using hfresh)

/-- Changes that go through one after the other. -/
theorem applyAll_cons {d : Dialect} {names names' : List String} {change : Revision}
    {rest : List Revision} (h : applyAll d names (change :: rest) = .ok names') :
    ∃ between, Accepted d names change between ∧ applyAll d between rest = .ok names' := by
  rw [applyAll] at h
  split at h
  · rename_i between hchange
    exact ⟨between, accepted_of_apply hchange, h⟩
  · cases h

end Revision

/-! ## Columns behind the names -/

/-- The names of a revision and the columns of a design are the same up to case, and the columns
    keep the rules on names. -/
structure Tracks (d : Dialect) (names : List String) (columns : List ColumnDesign) : Prop where
  valid : ∀ c ∈ columns, d.isValidName c.name = true
  distinct : columns.Pairwise fun a b => sameName a.name b.name = false
  same : ∀ name, Revision.isColumn names name
    = Revision.isColumn (columns.map ColumnDesign.name) name

/-- A renamed column gives up its name for the new one.  In the columns it keeps its
    place, while the list of the checks has it at the end; for what is known this is the
    same. -/
theorem Revision.isColumn_rename {columns : List ColumnDesign} {old new : String}
    (hold : isColumn (columns.map ColumnDesign.name) old = true) (name : String) :
    isColumn (((rename old new).revise columns).map ColumnDesign.name) name
      = isColumn (without (columns.map ColumnDesign.name) old ++ [new]) name := by
  rw [isColumn_append, isColumn_without, Bool.eq_iff_iff, Bool.or_eq_true, Bool.and_eq_true,
    isColumn_map_iff, isColumn_map_iff, isColumn_singleton]
  constructor
  · rintro ⟨x, hx, hname⟩
    obtain ⟨c, hc, rfl⟩ := List.mem_map.mp hx
    cases hcold : sameName c.name old with
    | true =>
        rw [hcold, if_pos rfl] at hname
        exact Or.inr hname
    | false =>
        rw [hcold, if_neg Bool.false_ne_true] at hname
        refine Or.inl ⟨⟨c, hc, hname⟩, ?_⟩
        rw [sameName_comm, ← sameName_congr hname, hcold]
        rfl
  · rintro (⟨⟨c, hc, hname⟩, hother⟩ | hnew)
    · rw [sameName_comm, ← sameName_congr hname, Bool.not_eq_true'] at hother
      refine ⟨_, List.mem_map_of_mem hc, ?_⟩
      rw [hother, if_neg Bool.false_ne_true]
      exact hname
    · -- the renamed column is there
      obtain ⟨c, hc, hcold⟩ := isColumn_map_iff.mp hold
      refine ⟨_, List.mem_map_of_mem hc, ?_⟩
      rw [hcold, if_pos rfl]
      exact hnew

namespace Tracks

open Revision

variable {d : Dialect} {names names' : List String} {columns : List ColumnDesign}

/-- A name that is not tracked is new to all columns. -/
theorem ne_of_not_isColumn (h : Tracks d names columns) {name : String}
    (hnew : isColumn names name = false) : ∀ c ∈ columns, sameName c.name name = false := by
  rw [h.same, isColumn_eq_false] at hnew
  exact List.forall_mem_map.mp hnew

/-- An added column has a valid and new name. -/
theorem add (h : Tracks d names columns) {c : ColumnDesign} (hvalid : d.isValidName c.name = true)
    (hnew : isColumn names c.name = false) : Tracks d (names ++ [c.name]) (columns ++ [c]) where
  valid := List.forall_mem_append.mpr ⟨h.valid, List.forall_mem_singleton.mpr hvalid⟩
  distinct := by
    refine List.pairwise_append.mpr ⟨h.distinct, List.pairwise_singleton .., ?_⟩
    intro a ha b hb
    rw [List.mem_singleton.mp hb]
    exact h.ne_of_not_isColumn hnew a ha
  same name := by
    rw [List.map_append, isColumn_append, isColumn_append, h.same]
    rfl

/-- An altered column has the name of the one that it replaces, up to case.  So the list
    of the checks need not change. -/
theorem alter (h : Tracks d names columns) (c : ColumnDesign) :
    Tracks d names ((Revision.alter c).revise columns) := by
  -- a column that is replaced keeps its name up to case
  have hname (x : ColumnDesign) (name : String) :
      sameName (if sameName x.name c.name then c else x).name name = sameName x.name name := by
    split
    · rename_i hx
      exact (sameName_congr hx name).symm
    · rfl
  constructor
  · refine List.forall_mem_map.mpr fun x hx => ?_
    split
    · rename_i hsame
      rw [Dialect.isValidName, ← Identifier.isValid_congr hsame]
      exact h.valid x hx
    · exact h.valid x hx
  · refine List.pairwise_map.mpr (h.distinct.imp fun {a b} hab => ?_)
    rw [hname, sameName_comm, hname, sameName_comm]
    exact hab
  · intro name
    rw [h.same, revise, List.map_map, isColumn, isColumn, List.any_map, List.any_map]
    exact List.any_congr rfl fun x => (hname x name).symm

/-- A column is dropped with its name. -/
theorem drop (h : Tracks d names columns) (name : String) :
    Tracks d (without names name) ((Revision.drop name).revise columns) where
  valid c hc := h.valid c (List.mem_filter.mp hc).1
  distinct := h.distinct.filter _
  same other := by
    have hnames : ((Revision.drop name).revise columns).map ColumnDesign.name
        = without (columns.map ColumnDesign.name) name := by
      rw [revise, without, List.filter_map]
      rfl
    rw [hnames, isColumn_without, isColumn_without, h.same]

/-- A renamed column has a valid and new name.  The new name is checked before the old
    one is given up, so a column cannot be renamed to its own name. -/
theorem rename (h : Tracks d names columns) {old new : String} (hold : isColumn names old = true)
    (hvalid : d.isValidName new = true) (hnew : isColumn names new = false) :
    Tracks d (without names old ++ [new]) ((Revision.rename old new).revise columns) := by
  -- the new name is not among the columns, so that it clashes with none of them
  have hfresh := h.ne_of_not_isColumn hnew
  constructor
  · refine List.forall_mem_map.mpr fun x hx => ?_
    split
    · exact hvalid
    · exact h.valid x hx
  · refine List.pairwise_map.mpr (h.distinct.imp_of_mem fun {a b} ha hb hab => ?_)
    split
    · rename_i haold
      split
      · rename_i hbold
        rw [sameName_congr haold, sameName_comm, hbold] at hab
        cases hab
      · rw [sameName_comm]
        exact hfresh b hb
    · split
      · exact hfresh a ha
      · exact hab
  · intro name
    rw [h.same] at hold
    rw [isColumn_rename hold, isColumn_append, isColumn_append, isColumn_without, isColumn_without,
      h.same]

/-- **AN ACCEPTED CHANGE** is tracked. -/
theorem revise (h : Tracks d names columns) {change : Revision}
    (haccepted : Accepted d names change names') : Tracks d names' (change.revise columns) := by
  cases haccepted with
  | add hvalid hnew => exact h.add hvalid hnew
  | alter => exact h.alter _
  | drop => exact h.drop _
  | rename hold hvalid hnew => exact h.rename hold hvalid hnew

/-- **ACCEPTED CHANGES** are tracked in any number. -/
theorem reviseAll {changes : List Revision} :
    ∀ {names : List String} {columns : List ColumnDesign}, Tracks d names columns →
      applyAll d names changes = .ok names' → Tracks d names' (reviseAll columns changes) := by
  induction changes with
  | nil =>
      intro names columns h hchanges
      cases hchanges
      exact h
  | cons change rest ih =>
      intro names columns h hchanges
      obtain ⟨between, hchange, hrest⟩ := applyAll_cons hchanges
      exact ih (h.revise hchange) hrest

/-- A column is named once, so that dropping it leaves one column less. -/
theorem length_drop (h : Tracks d names columns) {name : String}
    (hname : isColumn names name = true) :
    ((Revision.drop name).revise columns).length + 1 = columns.length := by
  have hatMost := countP_sameName_le_one h.distinct name
  have hatLeast : 0 < columns.countP fun c => sameName c.name name := by
    rw [List.countP_pos_iff, ← isColumn_map_iff, ← h.same]
    exact hname
  have hkept : ((Revision.drop name).revise columns).length
      = columns.countP fun c => decide ¬ sameName c.name name = true := by
    rw [Revision.revise, ← List.countP_eq_length_filter]
    exact List.countP_congr fun c _ => by simp
  have hall := List.length_eq_countP_add_countP (fun c : ColumnDesign => sameName c.name name)
    (l := columns)
  omega

/-- An accepted change adds or drops the columns that it is counted for. -/
theorem length_revise (h : Tracks d names columns) {change : Revision}
    (haccepted : Accepted d names change names') :
    (change.revise columns).length + [change].countP drops
      = columns.length + [change].countP adds := by
  cases haccepted with
  | add => exact List.length_append
  | alter => exact List.length_map ..
  | drop hknown => exact h.length_drop hknown
  | rename => exact List.length_map ..

/-- **THE COLUMNS AFTER ACCEPTED CHANGES** are as many as were there and are added, less those
    that are dropped. -/
theorem length_reviseAll {changes : List Revision} :
    ∀ {names : List String} {columns : List ColumnDesign}, Tracks d names columns →
      applyAll d names changes = .ok names' →
      (Revision.reviseAll columns changes).length + changes.countP drops
        = columns.length + changes.countP adds := by
  induction changes with
  | nil =>
      intro names columns h hchanges
      rfl
  | cons change rest ih =>
      intro names columns h hchanges
      obtain ⟨between, hchange, hrest⟩ := applyAll_cons hchanges
      have hone := h.length_revise hchange
      have hothers := ih (h.revise hchange) hrest
      rw [← List.singleton_append, List.countP_append, List.countP_append]
      show (Revision.reviseAll (change.revise columns) rest).length + _ = _
      omega

end Tracks

/-! ## Rules without a check -/

section

variable {P : ColumnDesign → Prop} (hrenamed : ∀ c new, P c → P { c with name := new })

include hrenamed

/-- A rule that is not on names is kept by a change if its definition keeps it. -/
theorem Revision.forall_mem_revise {columns : List ColumnDesign} {change : Revision}
    (hcolumns : ∀ c ∈ columns, P c) (hchange : ∀ c ∈ change.design?, P c) :
    ∀ c ∈ change.revise columns, P c := by
  cases change with
  | add c =>
      exact List.forall_mem_append.mpr ⟨hcolumns, List.forall_mem_singleton.mpr (hchange c rfl)⟩
  | alter c =>
      refine List.forall_mem_map.mpr fun x hx => ?_
      split
      · exact hchange c rfl
      · exact hcolumns x hx
  | drop name => exact fun c hc => hcolumns c (List.mem_filter.mp hc).1
  | rename old new =>
      refine List.forall_mem_map.mpr fun x hx => ?_
      split
      · exact hrenamed x new (hcolumns x hx)
      · exact hcolumns x hx

/-- **A RULE THAT IS NOT ON NAMES** is kept if all definitions keep it.  A rename keeps
    such a rule because it changes nothing but the name. -/
theorem Revision.forall_mem_reviseAll {changes : List Revision} :
    ∀ {columns : List ColumnDesign}, (∀ c ∈ columns, P c) →
      (∀ c ∈ changes.filterMap Revision.design?, P c) →
      ∀ c ∈ Revision.reviseAll columns changes, P c := by
  induction changes with
  | nil =>
      intro columns hcolumns _
      exact hcolumns
  | cons change rest ih =>
      intro columns hcolumns hchanges
      refine ih (Revision.forall_mem_revise hrenamed hcolumns fun c hc => ?_) fun c hc => ?_
      · exact hchanges c (List.mem_filterMap.mpr ⟨change, List.mem_cons_self .., hc⟩)
      · obtain ⟨other, hother, hdefines⟩ := List.mem_filterMap.mp hc
        exact hchanges c (List.mem_filterMap.mpr ⟨other, List.mem_cons_of_mem _ hother, hdefines⟩)

end

/-- A replaced column is counted at most once.  The names differ, so no other column is
    replaced. -/
theorem countP_alter_le {p : ColumnDesign → Bool} {columns : List ColumnDesign}
    (hdistinct : columns.Pairwise fun a b => sameName a.name b.name = false) (c : ColumnDesign) :
    ((Revision.alter c).revise columns).countP p ≤ columns.countP p + [c].countP p := by
  have hone : (columns.countP fun x => sameName x.name c.name && p c) ≤ [c].countP p := by
    cases hc : p c with
    | false => simp
    | true =>
        simp only [Bool.and_true, List.countP_singleton, hc, if_pos]
        exact countP_sameName_le_one hdistinct c.name
  refine Nat.le_trans ?_ (Nat.add_le_add_left hone _)
  clear hone hdistinct
  rw [Revision.revise, List.countP_map]
  induction columns with
  | nil => exact Nat.le_refl _
  | cons x rest ih =>
      rw [List.countP_cons, List.countP_cons, List.countP_cons]
      -- whichever column stands here, it is counted on the right
      have hx : (if (p ∘ fun x => if sameName x.name c.name then c else x) x then 1 else 0)
          ≤ (if p x then 1 else 0) + (if sameName x.name c.name && p c then 1 else 0) := by
        rw [Function.comp_apply]
        cases sameName x.name c.name with
        | true => exact Nat.le_add_left _ _
        | false => exact Nat.le_refl _
      omega

namespace Tracks

open Revision

variable {d : Dialect} {names names' : List String} {columns : List ColumnDesign}
  {p : ColumnDesign → Bool} (hrenamed : ∀ c new, p { c with name := new } = p c)

include hrenamed

/-- A change brings in what it defines. -/
theorem countP_revise_le (h : Tracks d names columns) (change : Revision) :
    (change.revise columns).countP p
      ≤ columns.countP p + ([change].filterMap design?).countP p := by
  cases change with
  | add c => exact Nat.le_of_eq List.countP_append
  | alter c => exact countP_alter_le h.distinct c
  | drop name => exact List.filter_sublist.countP_le
  | rename old new =>
      refine Nat.le_of_eq ?_
      rw [Revision.revise, List.countP_map]
      refine List.countP_congr fun x _ => ?_
      rw [Function.comp_apply]
      split
      · rw [hrenamed]
      · exact Iff.rfl

/-- **A PROPERTY THAT IS NOT ON NAMES** is had by no more columns after accepted changes than
    before them and among their definitions. -/
theorem countP_reviseAll_le {changes : List Revision} :
    ∀ {names : List String} {columns : List ColumnDesign}, Tracks d names columns →
      applyAll d names changes = .ok names' →
      (Revision.reviseAll columns changes).countP p
        ≤ columns.countP p + (changes.filterMap design?).countP p := by
  induction changes with
  | nil =>
      intro names columns _ _
      exact Nat.le_refl _
  | cons change rest ih =>
      intro names columns h hchanges
      obtain ⟨between, hchange, hrest⟩ := applyAll_cons hchanges
      have hone := h.countP_revise_le hrenamed change
      have hothers := ih (h.revise hchange) hrest
      rw [← List.singleton_append, List.filterMap_append, List.countP_append]
      show (Revision.reviseAll (change.revise columns) rest).countP p ≤ _
      omega

end Tracks

/-! ## The revised design -/

namespace TableDesign

variable {d : Dialect} {t : TableDesign}

/-- The information on the columns of a valid design has their names. -/
theorem Valid.tracks (h : t.Valid d) :
    Tracks d ((t.columns.map ColumnInfo.ofDesign).map ColumnInfo.name) t.columns where
  valid := h.names
  distinct := h.distinct
  same name := by
    rw [List.map_map]
    rfl

/-- A revision goes through if its changes do. -/
theorem applyAll_of_validate {r : TableRevision} {existing : List ColumnInfo}
    (h : r.validate d existing = .ok ()) :
    ∃ names, Revision.applyAll d (existing.map ColumnInfo.name) r.changes = .ok names := by
  rw [TableRevision.validate] at h
  split at h
  · rename_i names hrun
    rw [TableRevision.run] at hrun
    split at hrun
    · cases hrun
    · split at hrun
      · cases hrun
      · exact ⟨names, hrun⟩
  · cases h

/-- **AN ACCEPTED REVISION OF A VALID DESIGN** keeps its rules on names.  The rules that are left
    decide whether the design is valid after it: some column has to be left, a generated column
    has to be an integer, and one may be the key.  They hold if the changes keep them. -/
theorem validate_revised {r : TableRevision} (hdesign : t.validate d = .ok ())
    (hrevision : r.validate d (t.columns.map ColumnInfo.ofDesign) = .ok ()) :
    (d.isValidName (t.revised r).tableName = true
        ∧ (∀ c ∈ (t.revised r).columns, d.isValidName c.name = true)
        ∧ (t.revised r).columns.Pairwise fun a b => sameName a.name b.name = false)
      ∧ ((t.revised r).validate d = .ok ()
        ↔ (t.revised r).columns ≠ []
          ∧ (∀ c ∈ (t.revised r).columns, c.isAutoIncrementing = true → c.dataType = .integer)
          ∧ (t.revised r).columns.countP (isKeyColumn d) ≤ 1)
      ∧ (r.changes.countP Revision.drops < t.columns.length + r.changes.countP Revision.adds →
        (∀ c ∈ r.designs, c.isAutoIncrementing = true → c.dataType = .integer) →
        t.columns.countP (isKeyColumn d) + r.designs.countP (isKeyColumn d) ≤ 1 →
        (t.revised r).validate d = .ok ()) := by
  have hvalid := validate_eq_ok_iff.mp hdesign
  obtain ⟨names, hchanges⟩ := applyAll_of_validate hrevision
  -- names stay valid and distinct along all the changes
  have hrevised : Tracks d names (t.revised r).columns := hvalid.tracks.reviseAll hchanges
  have hiff : (t.revised r).validate d = .ok ()
      ↔ (t.revised r).columns ≠ []
        ∧ (∀ c ∈ (t.revised r).columns, c.isAutoIncrementing = true → c.dataType = .integer)
        ∧ (t.revised r).columns.countP (isKeyColumn d) ≤ 1 := by
    rw [validate_eq_ok_iff]
    constructor
    · intro h
      exact ⟨h.nonempty, h.generated, h.oneKey⟩
    · rintro ⟨hnonempty, hgenerated, hkey⟩
      exact ⟨hvalid.table, hnonempty, hrevised.valid, hrevised.distinct, hgenerated, hkey⟩
  refine ⟨⟨hvalid.table, hrevised.valid, hrevised.distinct⟩, hiff, ?_⟩
  intro hleft hintegers hkeys
  -- of what is left, columns remain, integers stay integers, and keys do not add up
  refine hiff.mpr ⟨?_, ?_, ?_⟩
  · intro hnone
    have hlength := hvalid.tracks.length_reviseAll hchanges
    rw [show Revision.reviseAll t.columns r.changes = [] from hnone, List.length_nil] at hlength
    omega
  · exact Revision.forall_mem_reviseAll (fun _ _ h => h) hvalid.generated hintegers
  · exact Nat.le_trans (hvalid.tracks.countP_reviseAll_le (fun _ _ => rfl) hchanges) hkeys

/-- A design of shelves with a numbered key. -/
def shelvesDesign : TableDesign where
  tableName := "Shelves"
  columns := [
    { name := "Id", dataType := .integer, isNullable := false, isPrimaryKey := true },
    { name := "Title", dataType := .string }]

/-- A revision that gives the title a new name and definition and adds a weight. -/
def shelvesRevision : TableRevision where
  tableName := "Shelves"
  changes := [
    .rename "title" "Label",
    .alter { name := "LABEL", dataType := .string, length := some 40 },
    .add { name := "Weight", dataType := .decimal }]

/-- The shelves stay valid.  The title is renamed first, and then altered under its new
    name. -/
theorem validate_revised_shelves :
    shelvesDesign.validate .postgres = .ok ()
      ∧ shelvesRevision.validate .postgres (shelvesDesign.columns.map ColumnInfo.ofDesign) = .ok ()
      ∧ (shelvesDesign.revised shelvesRevision).validate .postgres = .ok () := by
  have hdesign : shelvesDesign.validate .postgres = .ok () := by decide +kernel
  have hrevision :
      shelvesRevision.validate .postgres (shelvesDesign.columns.map ColumnInfo.ofDesign)
        = .ok () := by
    decide +kernel
  obtain ⟨-, -, haccepted⟩ := validate_revised hdesign hrevision
  exact ⟨hdesign, hrevision, haccepted (by decide) (by decide) (by decide)⟩

/-- **AN ACCEPTED REVISION CAN BREAK A VALID DESIGN**, for it may drop every column.
    The checks follow names only, and no names are fine for them. -/
theorem exists_invalid_revised :
    ¬ ∀ (d : Dialect) (t : TableDesign) (r : TableRevision), t.validate d = .ok () →
      r.validate d (t.columns.map ColumnInfo.ofDesign) = .ok () →
      (t.revised r).validate d = .ok () := by
  intro h
  have hempty := h .sqlite shelvesDesign
    { tableName := "Shelves", changes := [.drop "Id", .drop "Title"] }
    (by decide +kernel) (by decide +kernel)
  exact absurd hempty (by decide +kernel)

end TableDesign

end Gridbase
