import Gridbase.Proofs.Text
import Gridbase.Store.Database
import Mathlib.Data.List.Forall2

/-! # Tables that were made

    What a database holds once a statement has made a table: the columns are the
    declared ones in their order, and the name of the table reaches them. -/

namespace Gridbase

/-! ## Columns -/

namespace ColumnDeclaration

/-- The column that is stored for a declaration.  All that is declared is stored; the
    default has to be one that can be read. -/
structure Stores (d : ColumnDeclaration) (c : StoredColumn) : Prop where
  name : c.name = d.name
  declaredType : c.declaredType = d.declaredType
  notNull : c.notNull = d.notNull
  primaryKey : c.primaryKey = d.primaryKey
  preset : d.preset = .ok c.preset

/-- A declaration that is accepted stores its column. -/
theorem column_stores {table : String} {earlier : List StoredColumn} {d : ColumnDeclaration}
    {c : StoredColumn} (h : column table earlier d = .ok c) : Stores d c := by
  -- every check that fails ends in an error, and `split_ifs` closes those cases
  simp only [column, bind, Except.bind, throw, throwThe, MonadExceptOf.throw] at h
  split_ifs at h
  cases hpreset : d.preset with
  | error fault =>
      rw [hpreset] at h
      exact nomatch h
  | ok preset =>
      rw [hpreset] at h
      cases h
      exact ⟨rfl, rfl, rfl, rfl, hpreset⟩

/-- **DECLARATIONS THAT ARE ACCEPTED** store one column each, after those before
    them. -/
theorem columns_stores {table : String} (declarations : List ColumnDeclaration) :
    ∀ {earlier columns : List StoredColumn},
      ColumnDeclaration.columns table earlier declarations = .ok columns →
      ∃ new, columns = earlier ++ new ∧ List.Forall₂ Stores declarations new := by
  -- induction on the declarations, behind the columns made so far
  induction declarations with
  | nil =>
      intro earlier columns h
      cases h
      exact ⟨[], (List.append_nil _).symm, .nil⟩
  | cons d rest ih =>
      intro earlier columns h
      cases hc : column table earlier d with
      | error fault =>
          rw [ColumnDeclaration.columns, hc] at h
          exact nomatch h
      | ok c =>
          rw [ColumnDeclaration.columns, hc] at h
          obtain ⟨new, rfl, hnew⟩ := ih h
          refine ⟨c :: new, ?_, .cons (column_stores hc) hnew⟩
          rw [List.append_assoc, List.singleton_append]

end ColumnDeclaration

/-! ## Tables -/

namespace Database

/-- A table that was added under a free name is found under it. -/
theorem table?_addTable {db : Database} {t : Table} (h : db.table? t.name = none) :
    (db.addTable t).table? t.name = some t := by
  have hfree : db.tables.find? (fun u => Text.sameName u.name t.name) = none := h
  show (db.tables ++ [t]).find? (fun u => Text.sameName u.name t.name) = some t
  rw [List.find?_append, hfree, Option.none_or]
  exact List.find?_cons_of_pos (Text.sameName_refl t.name)

/-- What has been made under a free name: a table of the declared columns.  A name that
    is taken in another spelling is not free. -/
theorem create_eq_ok {db db' : Database} {name written definition : String}
    {declarations : List ColumnDeclaration}
    (h : db.create name written definition false declarations = .ok db') :
    ∃ t, db'.table? name = some t ∧ t.name = name ∧ t.writtenName = written
      ∧ t.definition = definition
      ∧ List.Forall₂ ColumnDeclaration.Stores declarations t.columns := by
  rw [create] at h
  by_cases hinternal : isInternal name = true
  · rw [if_pos hinternal] at h
    exact nomatch h
  · rw [if_neg hinternal] at h
    -- the steps in their order; each but the last can only fail
    cases hfree : db.table? name with
    | some t =>
        rw [hfree] at h
        exact nomatch h
    | none =>
        rw [hfree] at h
        cases hcolumns : ColumnDeclaration.columns name [] declarations with
        | error fault =>
            rw [hcolumns] at h
            exact nomatch h
        | ok columns =>
            rw [hcolumns] at h
            let made : Database := db.addTable
              { name, writtenName := written, definition, columns
                generated := declarations.any ColumnDeclaration.generated }
            replace h : (if Word.isCondition written = true then
                (throw (.malformedTable written) : Except StoreFault Unit) >>= fun _ => .ok made
              else .ok made) = .ok db' := h
            split at h
            case isTrue => exact nomatch h
            case isFalse =>
              obtain rfl : made = db' := Except.ok.inj h
              obtain ⟨new, rfl, hnew⟩ := ColumnDeclaration.columns_stores declarations hcolumns
              exact ⟨_, table?_addTable hfree, rfl, rfl, rfl, hnew⟩

end Database

end Gridbase
