import Gridbase.Proofs.Identifier
import Gridbase.Statement

/-! # Complete statements

    A statement over a table that has been given is made once its clauses have what they
    need: columns with names, a value for each column, an assignment.  A valid name is one that
    can be given. -/

namespace Gridbase

variable {d : Dialect} {table : String}

/-! ## Given tables -/

theorem givenTable_of_ne (h : table ≠ "") (missing : Incomplete) :
    givenTable (some table) missing = .ok table := if_neg h

/-- A valid name has been given. -/
theorem givenTable_of_isValid (h : d.isValidName table = true) (missing : Incomplete) :
    givenTable (some table) missing = .ok table := by
  refine givenTable_of_ne ?_ missing
  rintro rfl
  exact Identifier.toList_ne_nil h rfl

/-- A selection needs a table only. -/
theorem Select.build_of_given {s : Select} (htable : givenTable s.table .missingFrom = .ok table) :
    s.build d = .ok (Query.ofFragments d (s.fragments table)) := by
  rw [build, htable]
  rfl

/-- An insertion needs values, and as many of them as columns. -/
theorem Insert.build_of_given {s : Insert} (htable : givenTable s.table .missingTable = .ok table)
    (hvalues : s.values ≠ []) (hlength : s.columns.length = s.values.length) :
    s.build d = .ok (Query.ofFragments d (s.fragments table)) := by
  have hempty : s.values.isEmpty = false := List.isEmpty_eq_false_iff.mpr hvalues
  rw [build, htable, hempty, hlength, bne_self_eq_false, Bool.and_false]
  rfl

/-- An update needs an assignment. -/
theorem Update.build_of_given {s : Update} (htable : givenTable s.table .missingTable = .ok table)
    (hassignments : s.assignments ≠ []) :
    s.build d = .ok (Query.ofFragments d (s.fragments table)) := by
  have hempty : s.assignments.isEmpty = false := List.isEmpty_eq_false_iff.mpr hassignments
  rw [build, htable, hempty]
  rfl

/-- A removal needs a table only. -/
theorem Delete.build_of_given {s : Delete} (htable : givenTable s.table .missingTable = .ok table) :
    s.build d = .ok (Query.ofFragments d (s.fragments table)) := by
  rw [build, htable]
  rfl

/-- A table needs columns, none of them with a blank name. -/
theorem CreateTable.build_of_given {s : CreateTable}
    (htable : givenTable s.table .missingTable = .ok table) (hne : s.columns ≠ [])
    (hcolumns : ∀ c ∈ s.columns, Text.allBlank c.name = false) :
    s.build d = .ok (Query.plain (s.text d table)) := by
  have hempty : s.columns.isEmpty = false := List.isEmpty_eq_false_iff.mpr hne
  have hnamed : (s.columns.any fun c => Text.allBlank c.name) = false := by
    rw [List.any_eq_false]
    intro c hc
    rw [hcolumns c hc]
    exact nofun
  rw [build, htable, hempty, hnamed]
  rfl

/-! ## Valid tables -/

theorem Select.build_eq_ok {s : Select} (htable : s.table = some table)
    (hname : d.isValidName table = true) :
    s.build d = .ok (Query.ofFragments d (s.fragments table)) :=
  build_of_given (htable ▸ givenTable_of_isValid hname _)

theorem Insert.build_eq_ok {s : Insert} (htable : s.table = some table)
    (hname : d.isValidName table = true) (hvalues : s.values ≠ [])
    (hlength : s.columns.length = s.values.length) :
    s.build d = .ok (Query.ofFragments d (s.fragments table)) :=
  build_of_given (htable ▸ givenTable_of_isValid hname _) hvalues hlength

theorem Update.build_eq_ok {s : Update} (htable : s.table = some table)
    (hname : d.isValidName table = true) (hassignments : s.assignments ≠ []) :
    s.build d = .ok (Query.ofFragments d (s.fragments table)) :=
  build_of_given (htable ▸ givenTable_of_isValid hname _) hassignments

theorem Delete.build_eq_ok {s : Delete} (htable : s.table = some table)
    (hname : d.isValidName table = true) :
    s.build d = .ok (Query.ofFragments d (s.fragments table)) :=
  build_of_given (htable ▸ givenTable_of_isValid hname _)

theorem CreateTable.build_eq_ok {s : CreateTable} (htable : s.table = some table)
    (hname : d.isValidName table = true) (hne : s.columns ≠ [])
    (hcolumns : ∀ c ∈ s.columns, d.isValidName c.name = true) :
    s.build d = .ok (Query.plain (s.text d table)) :=
  build_of_given (htable ▸ givenTable_of_isValid hname _) hne fun c hc =>
    Identifier.allBlank_of_isValid (hcolumns c hc)

end Gridbase
