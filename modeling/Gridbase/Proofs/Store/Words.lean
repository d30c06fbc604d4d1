import Gridbase.Store.Table
import Gridbase.Store.Words

/-! # Words that are names

    What a statement needs of its words, place by place: a word that is written, or names a
    table, is no keyword; a column that is read is READABLE, which means that it begins no
    expression of its own either (`Word.isReadable`).  The token behind a word never decides
    whether it is refused, but only where.

    * A statement passes the check exactly if each of its words is a name at its place
      (`Word.check_eq_ok`, and one lemma for each kind of statement).
    * Words that pass may still stand for a value of their own (`Word.isClock`,
      `Word.isRowNumber`, `Word.isTruth`).  What is read and written is told of words that
      stand for columns only (`Table.Reads`, `Table.Writes`). -/

namespace Gridbase

namespace Word

/-! ## Places -/

/-- A column of this name can be read: the word is no keyword and begins no expression of its
    own. -/
def isReadable (word : String) : Bool := !isKeyword word && !isOperator word

theorem refusedAt?_name {word : String} :
    refusedAt? ⟨word, .name⟩ = none ↔ isKeyword word = false := by
  rw [refusedAt?]
  cases isKeyword word <;> simp

theorem refusedAt?_operand {word next : String} :
    refusedAt? ⟨word, .operand next⟩ = none ↔ isReadable word = true := by
  rw [refusedAt?, isReadable]
  cases isKeyword word <;> cases isOperator word <;> simp

/-- **A STATEMENT PASSES** if none of its words is refused.  Only the first that is
    refused is reported. -/
theorem check_eq_ok {words : List Word} :
    check words = .ok () ↔ ∀ w ∈ words, w.refusedAt? = none := by
  rw [check, ← List.findSome?_eq_none_iff]
  cases words.findSome? refusedAt? with
  | none => exact iff_of_true rfl rfl
  | some token => exact ⟨(nomatch ·), (nomatch ·)⟩

/-! ## Lists of words -/

/-- The texts of a list are its columns, wherever it ends. -/
theorem map_text_listed (last : String) (columns : List String) :
    (listed last columns).map text = columns := by
  induction columns with
  | nil => rfl
  | cons column rest ih =>
      cases rest with
      | nil => rfl
      | cons next rest => rw [listed, List.map_cons, ih]

theorem map_text_names (names : List String) :
    (names.map fun name => (⟨name, .name⟩ : Word)).map text = names := by
  rw [List.map_map]
  exact List.map_id _

theorem map_text_conditions (conditions : List Condition) :
    (conditions.map ofCondition).map text = conditions.map Condition.column := List.map_map ..

/-- Names that are written. -/
theorem forall_names {α : Type} {items : List α} {name : α → String} :
    (∀ w ∈ items.map fun a => ⟨name a, .name⟩, refusedAt? w = none)
      ↔ ∀ word ∈ items.map name, isKeyword word = false := by
  rw [List.forall_mem_map, List.forall_mem_map]
  exact forall₂_congr fun _ _ => refusedAt?_name

/-- Columns that are read, each before a token of its own. -/
theorem forall_operands {α : Type} {items : List α} {column next : α → String} :
    (∀ w ∈ items.map fun a => ⟨column a, .operand (next a)⟩, refusedAt? w = none)
      ↔ ∀ word ∈ items.map column, isReadable word = true := by
  rw [List.forall_mem_map, List.forall_mem_map]
  exact forall₂_congr fun _ _ => refusedAt?_operand

/-- Columns that are read in a list. -/
theorem forall_listed {last : String} {columns : List String} :
    (∀ w ∈ listed last columns, refusedAt? w = none)
      ↔ ∀ column ∈ columns, isReadable column = true := by
  induction columns with
  | nil => exact iff_of_true (List.forall_mem_nil _) (List.forall_mem_nil _)
  | cons column rest ih =>
      cases rest with
      | nil => rw [listed, List.forall_mem_singleton, List.forall_mem_singleton, refusedAt?_operand]
      | cons next rest =>
          rw [listed, List.forall_mem_cons, ih, refusedAt?_operand]
          exact (List.forall_mem_cons (p := fun c => isReadable c = true)).symm

/-! ## Statements -/

theorem check_select_eq_ok {s : Select} :
    check s.words = .ok () ↔ isKeyword (s.table.getD "") = false
      ∧ (∀ column ∈ s.columns, isReadable column = true)
      ∧ (∀ column ∈ s.conditions.map Condition.column, isReadable column = true)
      ∧ ∀ column ∈ s.order.map OrderTerm.column, isReadable column = true := by
  have hconditions : (∀ w ∈ s.conditions.map ofCondition, refusedAt? w = none)
      ↔ ∀ column ∈ s.conditions.map Condition.column, isReadable column = true := forall_operands
  have horder : (∀ w ∈ s.order.map ofOrder, refusedAt? w = none)
      ↔ ∀ column ∈ s.order.map OrderTerm.column, isReadable column = true := forall_operands
  rw [check_eq_ok, Select.words, List.forall_mem_append, List.forall_mem_cons,
    List.forall_mem_append, forall_listed, refusedAt?_name, hconditions, horder, and_left_comm]

theorem check_insert_eq_ok {s : Insert} :
    check s.words = .ok ()
      ↔ ∀ word ∈ s.table.getD "" :: s.columns, isKeyword word = false := by
  have hcolumns : (∀ w ∈ s.columns.map fun name => ⟨name, .name⟩, refusedAt? w = none)
      ↔ ∀ word ∈ s.columns, isKeyword word = false := by
    rw [List.forall_mem_map]
    exact forall₂_congr fun _ _ => refusedAt?_name
  rw [check_eq_ok, Insert.words, List.forall_mem_cons, hcolumns, refusedAt?_name,
    List.forall_mem_cons]

theorem check_update_eq_ok {s : Update} :
    check s.words = .ok ()
      ↔ (∀ word ∈ s.table.getD "" :: s.assignments.map Entry.name, isKeyword word = false)
        ∧ ∀ column ∈ s.conditions.map Condition.column, isReadable column = true := by
  have hconditions : (∀ w ∈ s.conditions.map ofCondition, refusedAt? w = none)
      ↔ ∀ column ∈ s.conditions.map Condition.column, isReadable column = true := forall_operands
  rw [check_eq_ok, Update.words, List.forall_mem_cons, List.forall_mem_append, forall_names,
    hconditions, refusedAt?_name, List.forall_mem_cons, and_assoc]

theorem check_delete_eq_ok {s : Delete} :
    check s.words = .ok ()
      ↔ isKeyword (s.table.getD "") = false
        ∧ ∀ column ∈ s.conditions.map Condition.column, isReadable column = true := by
  have hconditions : (∀ w ∈ s.conditions.map ofCondition, refusedAt? w = none)
      ↔ ∀ column ∈ s.conditions.map Condition.column, isReadable column = true := forall_operands
  rw [check_eq_ok, Delete.words, List.forall_mem_cons, hconditions, refusedAt?_name]

/-! ## Words with a value of their own -/

/-- The words for the clock.  Where a column is read they stand for the time, even if a column
    has the name. -/
def clockWords : List String := ["CURRENT_DATE", "CURRENT_TIME", "CURRENT_TIMESTAMP"]

/-- The names of the row number, in a table without a column of the name.  They are
    valid names, and a database knows them in any table. -/
def rowNumberWords : List String := ["ROWID", "OID", "_ROWID_"]

/-- The words for truth values, where no column has the name.  They are valid names as
    well. -/
def truthWords : List String := ["TRUE", "FALSE"]

/-- The word stands for the clock. -/
def isClock (word : String) : Bool := clockWords.any fun k => Text.sameName k word

/-- The word may stand for the row number. -/
def isRowNumber (word : String) : Bool := rowNumberWords.any fun k => Text.sameName k word

/-- The word may stand for a truth value. -/
def isTruth (word : String) : Bool := truthWords.any fun k => Text.sameName k word

end Word

/-! ## Words that stand for columns -/

/-- Where it is read, the word stands for a column of the table or for nothing.  The clock is
    read even over a column of the name, while a column goes before the row number and before a
    truth value. -/
def Table.Reads (t : Table) (word : String) : Prop :=
  Word.isClock word = false
    ∧ ((Word.isRowNumber word || Word.isTruth word) = true → (t.position? word).isSome = true)

/-- Where it is written, each name of the row stands for a column of the table or for nothing. -/
def Table.Writes (t : Table) (row : Row) : Prop :=
  ∀ name ∈ row.names, Word.isRowNumber name = true → (t.position? name).isSome = true

instance Table.decidableReads (t : Table) (word : String) : Decidable (t.Reads word) :=
  inferInstanceAs (Decidable (_ ∧ _))

instance Table.decidableWrites (t : Table) (row : Row) : Decidable (t.Writes row) :=
  inferInstanceAs (Decidable (∀ _ ∈ _, _ → _))

end Gridbase
