import Gridbase.Proofs.Schema.Revision
import Mathlib.Data.List.Perm.Basic

/-! # Revisions one after another

    Two lists of changes to a table are checked as one list, or the second against the columns
    that the first leaves.  Both come to the same (`TableRevision.validate_append`).

    * The columns that changes leave are those of the table with each change carried out in its
      place (`Revision.reviseInfo`).  The checks keep another list, in which a renamed column
      comes last.
    * Names that differ have to be found and kept: if no two names of the columns are the same,
      the two lists are permutations of each other, and again no two names are the same
      (`Revision.Follows.step`, `Revision.Follows.steps`).
    * The checks do not look at the order of the names (`Revision.applyAll_perm`). -/

namespace Gridbase

open Gridbase.Text

namespace Revision

/-! ## The columns that changes leave -/

/-- The columns of a table after a change.  An altered column keeps its name, in the
    spelling that the table has. -/
def reviseInfo : Revision → List ColumnInfo → List ColumnInfo
  | add c, columns => columns ++ [ColumnInfo.ofDesign c]
  | alter c, columns =>
      columns.map fun x =>
        if sameName x.name c.name then { ColumnInfo.ofDesign c with name := x.name } else x
  | drop name, columns => columns.filter fun x => !sameName x.name name
  | rename old new, columns =>
      columns.map fun x => if sameName x.name old then { x with name := new } else x

/-- The columns of a table after changes in order. -/
def reviseInfos (columns : List ColumnInfo) (changes : List Revision) : List ColumnInfo :=
  changes.foldl (fun columns change => change.reviseInfo columns) columns

/-- The name that a change brings in.  An altered column brings none, as it keeps its
    own. -/
def newName? : Revision → Option String
  | add c => some c.name
  | rename _ new => some new
  | alter _ | drop _ => none

/-- The names of the columns after a change, each in its place.  This is where a renamed
    column differs from the list of the checks. -/
def reviseNames : Revision → List String → List String
  | add c, names => names ++ [c.name]
  | alter _, names => names
  | drop name, names => without names name
  | rename old new, names => names.map fun n => if sameName n old then new else n

theorem names_reviseInfo (change : Revision) (columns : List ColumnInfo) :
    (change.reviseInfo columns).map ColumnInfo.name
      = change.reviseNames (columns.map ColumnInfo.name) := by
  -- a change of the columns is the same change of their names
  cases change with
  | add c => exact List.map_append
  | alter c =>
      rw [reviseInfo, reviseNames, List.map_map]
      refine List.map_congr_left fun x _ => ?_
      rw [Function.comp_apply]
      split <;> rfl
  | drop name =>
      rw [reviseInfo, reviseNames, without, List.filter_map]
      rfl
  | rename old new =>
      rw [reviseInfo, reviseNames, List.map_map, List.map_map]
      refine List.map_congr_left fun x _ => ?_
      rw [Function.comp_apply, Function.comp_apply]
      split <;> rfl

/-! ## Names that differ -/

/-- No two names are the same, whatever their case. -/
def Distinct (names : List String) : Prop := names.Pairwise fun a b => sameName a b = false

theorem Distinct.of_perm {names others : List String} (h : Distinct names)
    (hperm : names.Perm others) : Distinct others :=
  (hperm.pairwise_iff fun {a b} hab => (sameName_comm b a).trans hab).mp h

section

variable {d : Dialect} {names names' others : List String} {change : Revision} {name : String}

/-- **A NAME IS HELD BY ONE COLUMN**, and the others are left when it is taken away.  A
    rename and a drop both take one name away, and this says which. -/
theorem Distinct.exists_perm (h : Distinct names) (hname : isColumn names name = true) :
    ∃ a, sameName a name = true ∧ names.Perm (a :: without names name) := by
  obtain ⟨a, ha, hsame⟩ := isColumn_iff.mp hname
  have hatMost : (names.filter fun n => sameName n name).length ≤ 1 := by
    rw [← List.countP_eq_length_filter]
    exact countP_sameName_le_one h name
  have hmem : a ∈ names.filter fun n => sameName n name := List.mem_filter.mpr ⟨ha, hsame⟩
  obtain ⟨b, hsingle⟩ :=
    List.length_eq_one_iff.mp (Nat.le_antisymm hatMost (List.length_pos_of_mem hmem))
  rw [hsingle, List.mem_singleton] at hmem
  have hsplit := List.filter_append_perm (fun n => sameName n name) names
  rw [hsingle, ← hmem] at hsplit
  exact ⟨a, hsame, hsplit.symm⟩

/-- Names that differ go on to differ after an accepted change. -/
theorem Distinct.accepted (h : Distinct names) (haccepted : Accepted d names change names') :
    Distinct names' := by
  have hlast {kept : List String} {new : String} (hkept : Distinct kept)
      (hnew : isColumn kept new = false) : Distinct (kept ++ [new]) := by
    refine List.pairwise_append.mpr ⟨hkept, List.pairwise_singleton .., fun a ha b hb => ?_⟩
    rw [List.mem_singleton.mp hb]
    exact isColumn_eq_false.mp hnew a ha
  cases haccepted with
  | add _ hnew => exact hlast h hnew
  | alter => exact h
  | drop => exact h.filter _
  | rename _ _ hfresh =>
      refine hlast (h.filter _) ?_
      show isColumn (without names _) _ = false
      rw [isColumn_without, hfresh, Bool.false_and]

/-- **A RENAMED COLUMN COMES LAST** in the list of the checks, and keeps its place in the table. -/
theorem Distinct.perm_reviseNames (h : Distinct names)
    (haccepted : Accepted d names change names') : names'.Perm (change.reviseNames names) := by
  cases haccepted with
  | add | alter | drop => exact List.Perm.refl _
  | @rename old new hknown =>
      obtain ⟨a, ha, hperm⟩ := h.exists_perm hknown
      have hothers : (without names old).map (fun n => if sameName n old then new else n)
          = without names old := by
        refine (List.map_congr_left fun n hn => ?_).trans (List.map_id _)
        have hother := (List.mem_filter.mp hn).2
        rw [Bool.not_eq_true'] at hother
        rw [hother, if_neg Bool.false_ne_true, id]
      refine (List.perm_append_singleton new _).trans ?_
      refine List.Perm.trans ?_ (hperm.map fun n => if sameName n old then new else n).symm
      rw [List.map_cons, ha, if_pos rfl, hothers]

/-- An accepted change adds or drops as many names as it is counted for. -/
theorem Distinct.length_accepted (h : Distinct names)
    (haccepted : Accepted d names change names') :
    names'.length + [change].countP drops = names.length + [change].countP adds := by
  have hwithout {name : String} (hname : isColumn names name = true) :
      (without names name).length + 1 = names.length := by
    obtain ⟨a, -, hperm⟩ := h.exists_perm hname
    rw [hperm.length_eq, List.length_cons]
  cases haccepted with
  | add => exact List.length_append
  | alter => rfl
  | drop hknown => exact hwithout hknown
  | rename hknown =>
      rw [List.length_append, List.length_singleton, hwithout hknown]
      rfl

/-- An accepted change brings in a valid name. -/
theorem Accepted.valid_newName (haccepted : Accepted d names change names') :
    ∀ name ∈ change.newName?, d.isValidName name = true := by
  cases haccepted with
  | add hvalid | rename _ hvalid =>
      rintro _ ⟨⟩
      exact hvalid
  | alter | drop => exact fun _ h => nomatch h

/-! ## The order of the names -/

/-- Changes are refused for one reason, or they leave the same names in some order.  The
    order is all that may differ. -/
inductive SameOutcome :
    Except RevisionFault (List String) → Except RevisionFault (List String) → Prop
  | ok {names others : List String} (perm : names.Perm others) :
      SameOutcome (.ok names) (.ok others)
  | error (fault : RevisionFault) : SameOutcome (.error fault) (.error fault)

/-- A change meets the same names in any order, so it is accepted or refused in the same
    way. -/
theorem apply_perm (h : names.Perm others) (change : Revision) :
    SameOutcome (change.apply d names) (change.apply d others) := by
  have hcolumn (name : String) : isColumn names name = isColumn others name := h.any_eq
  have hwithout (name : String) : (without names name).Perm (without others name) := h.filter _
  -- every guard asks for a name, and none asks where it stands
  cases change with
  | add c =>
      rw [apply, apply, hcolumn]
      split
      · exact .error _
      · split
        · exact .error _
        · exact .ok (h.append_right _)
  | alter c =>
      rw [apply, apply, hcolumn]
      split
      · exact .error _
      · exact .ok h
  | drop name =>
      rw [apply, apply, hcolumn]
      split
      · exact .error _
      · exact .ok (hwithout name)
  | rename old new =>
      rw [apply, apply, hcolumn, hcolumn]
      split
      · exact .error _
      · split
        · exact .error _
        · split
          · exact .error _
          · exact .ok ((hwithout old).append_right _)

/-- **THE ORDER OF THE NAMES** does not matter to any changes.  By induction on the
    changes: each is accepted or refused in the same way, and leaves the same names
    again. -/
theorem applyAll_perm {changes : List Revision} :
    ∀ {names others : List String}, names.Perm others →
      SameOutcome (applyAll d names changes) (applyAll d others changes) := by
  induction changes with
  | nil =>
      intro names others h
      exact .ok h
  | cons change rest ih =>
      intro names others h
      have hone := apply_perm (d := d) h change
      rw [applyAll, applyAll]
      -- a change that only one of the two lists refuses is no `SameOutcome`
      cases hchange : change.apply d names <;> cases hother : change.apply d others <;>
        rw [hchange, hother] at hone <;> cases hone
      · exact .error _
      · exact ih ‹_›

/-- Changes after others start from the names that these leave. -/
theorem applyAll_append (changes more : List Revision) :
    ∀ names, applyAll d names (changes ++ more)
      = (applyAll d names changes).bind fun between => applyAll d between more := by
  induction changes with
  | nil => exact fun _ => rfl
  | cons change rest ih =>
      intro names
      rw [List.cons_append, applyAll, applyAll]
      cases change.apply d names with
      | error fault => rfl
      | ok between => exact ih between

end

/-! ## Columns behind the names -/

/-- The names of the checks are those of the columns in some order, and they differ.
    Every change that is accepted keeps this. -/
structure Follows (names : List String) (columns : List ColumnInfo) : Prop where
  distinct : Distinct names
  perm : names.Perm (columns.map ColumnInfo.name)

section

variable {d : Dialect} {names names' : List String} {columns : List ColumnInfo}

theorem perm_reviseNames {others : List String} (h : names.Perm others) (change : Revision) :
    (change.reviseNames names).Perm (change.reviseNames others) := by
  cases change with
  | add c => exact h.append_right _
  | alter c => exact h
  | drop name => exact h.filter _
  | rename old new => exact h.map _

/-- **ONE STEP** of the checks is followed by the columns. -/
theorem Follows.step {change : Revision} (h : Follows names columns)
    (haccepted : Accepted d names change names') : Follows names' (change.reviseInfo columns) where
  distinct := h.distinct.accepted haccepted
  perm := by
    rw [names_reviseInfo]
    exact (h.distinct.perm_reviseNames haccepted).trans (perm_reviseNames h.perm change)

/-- **ANY NUMBER OF STEPS** is followed, every name brought in is valid, and the names are counted
    by the changes that add and drop. -/
theorem Follows.steps {changes : List Revision} :
    ∀ {names : List String} {columns : List ColumnInfo}, Follows names columns →
      applyAll d names changes = .ok names' →
      Follows names' (reviseInfos columns changes)
        ∧ (∀ change ∈ changes, ∀ name ∈ change.newName?, d.isValidName name = true)
        ∧ names'.length + changes.countP drops = names.length + changes.countP adds := by
  -- induction on the changes, with names and columns left open
  induction changes with
  | nil =>
      intro names columns h hchanges
      cases hchanges
      exact ⟨h, fun _ hmem => (nomatch hmem), rfl⟩
  | cons change rest ih =>
      intro names columns h hchanges
      obtain ⟨between, hchange, hrest⟩ := applyAll_cons hchanges
      obtain ⟨hfollows, hvalid, hlength⟩ := ih (h.step hchange) hrest
      have hone := h.distinct.length_accepted hchange
      refine ⟨hfollows, List.forall_mem_cons.mpr ⟨hchange.valid_newName, hvalid⟩, ?_⟩
      rw [← List.singleton_append, List.countP_append, List.countP_append]
      omega

end

end Revision

/-! ## Checks one after another -/

namespace TableRevision

open Revision

variable {d : Dialect} {table : String} {existing : List ColumnInfo}

/-- What is said of the names that changes leave, or of their fault.  The names
    themselves are not told. -/
def verdict : Except RevisionFault (List String) → Except Failure Unit
  | .ok _ => .ok ()
  | .error fault => .error (.invalid fault.message)

theorem validate_eq (htable : allBlank table = false) {changes : List Revision}
    (hchanges : changes ≠ []) (columns : List ColumnInfo) :
    validate d ⟨table, changes⟩ columns
      = verdict (applyAll d (columns.map ColumnInfo.name) changes) := by
  rw [validate, run, if_neg (by simp [htable]), if_neg (by simp [hchanges])]
  cases applyAll d (columns.map ColumnInfo.name) changes <;> rfl

theorem verdict_congr {a b : Except RevisionFault (List String)} (h : SameOutcome a b) :
    verdict a = verdict b := by
  cases h <;> rfl

/-- Accepted changes leave names. -/
theorem verdict_eq_ok {a : Except RevisionFault (List String)} (h : verdict a = .ok ()) :
    ∃ names, a = .ok names := by
  cases a with
  | ok names => exact ⟨names, rfl⟩
  | error fault => exact nomatch h

theorem follows_existing (hdistinct : existing.Pairwise fun a b => sameName a.name b.name = false) :
    Follows (existing.map ColumnInfo.name) existing where
  distinct := List.pairwise_map.mpr hdistinct
  perm := List.Perm.refl _

/-- A second list of changes is checked against the columns that the first leaves. -/
theorem validate_second (htable : allBlank table = false)
    (hdistinct : existing.Pairwise fun a b => sameName a.name b.name = false)
    {first second : List Revision} (hfirst : first ≠ []) (hsecond : second ≠ [])
    (haccepted : validate d ⟨table, first⟩ existing = .ok ()) :
    validate d ⟨table, first ++ second⟩ existing
      = validate d ⟨table, second⟩ (reviseInfos existing first) := by
  rw [validate_eq htable hfirst] at haccepted
  obtain ⟨names, hnames⟩ := verdict_eq_ok haccepted
  obtain ⟨hfollows, -, -⟩ := (follows_existing hdistinct).steps hnames
  rw [validate_eq htable (List.append_ne_nil_of_left_ne_nil hfirst second),
    validate_eq htable hsecond, applyAll_append, hnames]
  exact verdict_congr (applyAll_perm hfollows.perm)

/-- What is refused of the first changes is refused of all. -/
theorem validate_first (htable : allBlank table = false) {first second : List Revision}
    (hfirst : first ≠ []) {failure : Failure}
    (hrefused : validate d ⟨table, first⟩ existing = .error failure) :
    validate d ⟨table, first ++ second⟩ existing = .error failure := by
  rw [validate_eq htable hfirst] at hrefused
  rw [validate_eq htable (List.append_ne_nil_of_left_ne_nil hfirst second), applyAll_append]
  cases hnames : applyAll d (existing.map ColumnInfo.name) first with
  | ok names =>
      rw [hnames] at hrefused
      exact nomatch hrefused
  | error fault =>
      rw [hnames] at hrefused
      exact hrefused

/-- **THE CHECK OF CHANGES COMPOSES**: two lists of changes are accepted as one exactly if the
    first is, and the second against the columns that it leaves; and the verdict on the list, with
    its message, is that of the first part that is refused.  Accepted changes leave columns of
    different names, bring in valid names only, and add and drop as many columns as they say. -/
theorem validate_append (htable : allBlank table = false)
    (hdistinct : existing.Pairwise fun a b => sameName a.name b.name = false)
    {first second : List Revision} (hfirst : first ≠ []) (hsecond : second ≠ []) :
    (validate d ⟨table, first ++ second⟩ existing = .ok ()
        ↔ validate d ⟨table, first⟩ existing = .ok ()
          ∧ validate d ⟨table, second⟩ (reviseInfos existing first) = .ok ())
      ∧ (∀ failure, validate d ⟨table, first⟩ existing = .error failure →
        validate d ⟨table, first ++ second⟩ existing = .error failure)
      ∧ (validate d ⟨table, first⟩ existing = .ok () →
        validate d ⟨table, first ++ second⟩ existing
          = validate d ⟨table, second⟩ (reviseInfos existing first))
      ∧ ∀ changes, validate d ⟨table, changes⟩ existing = .ok () →
        ((reviseInfos existing changes).Pairwise fun a b => sameName a.name b.name = false)
          ∧ (∀ change ∈ changes, ∀ name ∈ change.newName?, d.isValidName name = true)
          ∧ (reviseInfos existing changes).length + changes.countP drops
            = existing.length + changes.countP adds := by
  have hboth := validate_second (d := d) htable hdistinct hfirst hsecond
  refine ⟨?_, fun failure => validate_first htable hfirst, hboth, ?_⟩
  · -- the first list decides alone, unless it is accepted
    cases hone : validate d ⟨table, first⟩ existing with
    | ok _ =>
        rw [hboth hone]
        exact ⟨fun h => ⟨rfl, h⟩, And.right⟩
    | error failure =>
        rw [validate_first htable hfirst hone]
        exact ⟨nofun, fun h => nomatch h.1⟩
  · intro changes haccepted
    obtain ⟨names, hnames⟩ := TableDesign.applyAll_of_validate haccepted
    obtain ⟨hfollows, hvalid, hlength⟩ := (follows_existing hdistinct).steps hnames
    refine ⟨List.pairwise_map.mp (hfollows.distinct.of_perm hfollows.perm), hvalid, ?_⟩
    have hcolumns := hfollows.perm.length_eq
    rw [List.length_map] at hcolumns hlength
    rw [← hcolumns, hlength]

/-- The columns of a table of people. -/
def peopleColumns : List ColumnInfo :=
  [{ name := "Id", dataType := "int" }, { name := "Name", dataType := "nvarchar" }]

/-- Changes that give the name of a person a new name, and a new definition under it. -/
def peopleRenaming : List Revision :=
  [.rename "name" "FullName",
    .alter { name := "FULLNAME", dataType := .string, length := some 200 }]

/-- Changes to the columns that are then there. -/
def peopleExchange : List Revision :=
  [.drop "fullname", .add { name := "Name", dataType := .string }]

/-- People are renamed, and then the new name is exchanged for the old one.  Spellings
    differ on the way: names are compared without their case. -/
theorem validate_append_people :
    allBlank "People" = false
      ∧ (peopleColumns.Pairwise fun a b => sameName a.name b.name = false)
      ∧ peopleRenaming ≠ [] ∧ peopleExchange ≠ []
      ∧ validate .sqlServer ⟨"People", peopleRenaming⟩ peopleColumns = .ok ()
      ∧ validate .sqlServer ⟨"People", peopleExchange⟩ (reviseInfos peopleColumns peopleRenaming)
        = .ok ()
      ∧ validate .sqlServer ⟨"People", peopleRenaming ++ peopleExchange⟩ peopleColumns
        = .ok () := by
  have htable : allBlank "People" = false := by decide +kernel
  have hdistinct : peopleColumns.Pairwise fun a b => sameName a.name b.name = false := by
    decide +kernel
  have hfirst : validate .sqlServer ⟨"People", peopleRenaming⟩ peopleColumns = .ok () := by
    decide +kernel
  have hsecond : validate .sqlServer ⟨"People", peopleExchange⟩
      (reviseInfos peopleColumns peopleRenaming) = .ok () := by
    decide +kernel
  have hcomposed := validate_append (d := .sqlServer) htable hdistinct
    (List.cons_ne_nil _ _ : peopleRenaming ≠ []) (List.cons_ne_nil _ _ : peopleExchange ≠ [])
  exact ⟨htable, hdistinct, List.cons_ne_nil _ _, List.cons_ne_nil _ _, hfirst, hsecond,
    hcomposed.1.mpr ⟨hfirst, hsecond⟩⟩

end TableRevision
end Gridbase
