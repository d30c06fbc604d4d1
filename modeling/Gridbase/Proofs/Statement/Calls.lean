import Gridbase.Statement

/-! # Statements made by calls

    A statement that binds values is made by calls, one clause after another, and a
    call may carry values.  MASKING puts NULL in the place of every value and leaves
    all names and operators as they are.

    Masking commutes with every call (`Calls.made_masked`), and the text of a
    statement does not change under it (`Manipulation.build_masked`).  Calls that
    agree once they are masked therefore make statements of one text. -/

namespace Gridbase

/-! ## Statements -/

/-- A statement that binds values.  The statements that make tables are of another kind,
    as they write theirs out. -/
inductive Manipulation
  | select (s : Select)
  | insert (s : Insert)
  | update (s : Update)
  | delete (s : Delete)
deriving DecidableEq

namespace Manipulation

/-- The query of a statement, or the reason why there is none. -/
def build (d : Dialect) : Manipulation → Except Incomplete Query
  | .select s => s.build d
  | .insert s => s.build d
  | .update s => s.build d
  | .delete s => s.build d

/-- The table of a statement. -/
def table? : Manipulation → Option String
  | .select s => s.table
  | .insert s => s.table
  | .update s => s.table
  | .delete s => s.table

/-- The fragments of a statement over a table. -/
def fragments (table : String) : Manipulation → List Fragment
  | .select s => s.fragments table
  | .insert s => s.fragments table
  | .update s => s.fragments table
  | .delete s => s.fragments table

/-- The names of tables and columns that a statement is made with. -/
def names : Manipulation → List String
  | .select s =>
      s.table.toList ++ s.columns ++ s.conditions.map Condition.column
        ++ s.order.map OrderTerm.column
  | .insert s => s.table.toList ++ s.columns
  | .update s =>
      s.table.toList ++ s.assignments.map Entry.name ++ s.conditions.map Condition.column
  | .delete s => s.table.toList ++ s.conditions.map Condition.column

/-- All names may stand in a statement of the dialect.  Builders do not check this; the
    operations that use them do. -/
def Named (d : Dialect) (m : Manipulation) : Prop := ∀ name ∈ m.names, d.isValidName name = true

instance (d : Dialect) (m : Manipulation) : Decidable (m.Named d) := List.decidableBAll _ m.names

theorem named_select {d : Dialect} {s : Select} :
    (select s).Named d ↔ (∀ t ∈ s.table, d.isValidName t = true)
      ∧ (∀ c ∈ s.columns, d.isValidName c = true)
      ∧ (∀ c ∈ s.conditions, d.isValidName c.column = true)
      ∧ ∀ t ∈ s.order, d.isValidName t.column = true := by
  simp only [Named, names, List.mem_append, or_imp, forall_and, List.forall_mem_map,
    Option.mem_toList, Option.mem_def, and_assoc]

theorem named_insert {d : Dialect} {s : Insert} :
    (insert s).Named d ↔ (∀ t ∈ s.table, d.isValidName t = true)
      ∧ ∀ c ∈ s.columns, d.isValidName c = true := by
  simp only [Named, names, List.mem_append, or_imp, forall_and, Option.mem_toList, Option.mem_def]

theorem named_update {d : Dialect} {s : Update} :
    (update s).Named d ↔ (∀ t ∈ s.table, d.isValidName t = true)
      ∧ (∀ e ∈ s.assignments, d.isValidName e.name = true)
      ∧ ∀ c ∈ s.conditions, d.isValidName c.column = true := by
  simp only [Named, names, List.mem_append, or_imp, forall_and, List.forall_mem_map,
    Option.mem_toList, Option.mem_def, and_assoc]

theorem named_delete {d : Dialect} {s : Delete} :
    (delete s).Named d ↔ (∀ t ∈ s.table, d.isValidName t = true)
      ∧ ∀ c ∈ s.conditions, d.isValidName c.column = true := by
  simp only [Named, names, List.mem_append, or_imp, forall_and, List.forall_mem_map,
    Option.mem_toList, Option.mem_def]

end Manipulation

/-! ## Queries of statements -/

/-- What is reported of a statement without a table. -/
def Manipulation.missing : Manipulation → Incomplete
  | .select _ => .missingFrom
  | .insert _ | .update _ | .delete _ => .missingTable

/-- What a statement needs besides a table.  Only insertions and updates can lack
    something. -/
def Manipulation.check : Manipulation → Except Incomplete Unit
  | .select _ | .delete _ => .ok ()
  | .insert s =>
      if !s.columns.isEmpty && s.columns.length != s.values.length then
        .error (.columnValueMismatch s.columns.length s.values.length)
      else if s.values.isEmpty then .error .noColumns
      else .ok ()
  | .update s => if s.assignments.isEmpty then .error .noAssignments else .ok ()

/-- The query of a statement is that of its fragments over its table, if the statement has all
    that it needs. -/
theorem Manipulation.build_eq (d : Dialect) (m : Manipulation) :
    m.build d = (givenTable m.table? m.missing).bind fun t =>
      m.check.map fun _ => Query.ofFragments d (m.fragments t) := by
  -- the table first, then what else the kind asks for
  cases m with
  | select s =>
      rw [build, Select.build, table?, missing]
      cases givenTable s.table .missingFrom <;> rfl
  | insert s =>
      rw [build, Insert.build, table?, missing, check]
      cases givenTable s.table .missingTable with
      | error e => rfl
      | ok t =>
          cases (!s.columns.isEmpty && s.columns.length != s.values.length) with
          | true => rfl
          | false => cases s.values.isEmpty <;> rfl
  | update s =>
      rw [build, Update.build, table?, missing, check]
      cases givenTable s.table .missingTable with
      | error e => rfl
      | ok t => cases s.assignments.isEmpty <;> rfl
  | delete s =>
      rw [build, Delete.build, table?, missing]
      cases givenTable s.table .missingTable <;> rfl

/-- A table that is given has a name. -/
theorem table_of_givenTable {table : Option String} {missing : Incomplete} {t : String}
    (h : givenTable table missing = .ok t) : table = some t := by
  cases table with
  | none => exact nomatch h
  | some u =>
      rw [givenTable] at h
      by_cases hu : u = ""
      · rw [if_pos hu] at h
        exact nomatch h
      · rw [if_neg hu] at h
        cases h
        rfl

/-- **WHAT A STATEMENT BUILDS**: the query of its fragments over its table.  What else
    it needs has been checked before, and leaves no trace in the query. -/
theorem Manipulation.build_eq_ok {d : Dialect} {m : Manipulation} {q : Query}
    (h : m.build d = .ok q) :
    ∃ t, m.table? = some t ∧ q = Query.ofFragments d (m.fragments t) := by
  rw [build_eq] at h
  cases htable : givenTable m.table? m.missing with
  | error e =>
      rw [htable] at h
      exact nomatch h
  | ok t =>
      rw [htable] at h
      refine ⟨t, table_of_givenTable htable, ?_⟩
      cases hcheck : m.check with
      | error e =>
          rw [hcheck] at h
          exact nomatch h
      | ok _ =>
          rw [hcheck] at h
          exact (Except.ok.inj h).symm

/-! ## Calls -/

/-- A call that adds to a SELECT statement.  Columns that are named again take the place
    of those before. -/
inductive Select.Call
  | ofTable (table : String)
  | only (columns : List String)
  | condition (c : Condition)
  | orderBy (column : String) (direction : Direction)
deriving DecidableEq

/-- A call that adds to an INSERT statement.  A row brings its columns along with its
    values. -/
inductive Insert.Call
  | intoTable (table : String)
  | only (columns : List String)
  | append (values : List Value)
  | row (r : Row)
deriving DecidableEq

/-- A call that adds to an UPDATE statement.  A row assigns its entries one by one. -/
inductive Update.Call
  | ofTable (table : String)
  | assign (column : String) (value : Value)
  | row (r : Row)
  | condition (c : Condition)
deriving DecidableEq

/-- A call that adds to a DELETE statement.  Without a condition all rows are meant. -/
inductive Delete.Call
  | ofTable (table : String)
  | condition (c : Condition)
deriving DecidableEq

/-- The statement after one more call. -/
def Select.call (s : Select) : Select.Call → Select
  | .ofTable table => s.ofTable table
  | .only columns => s.only columns
  | .condition c => s.condition c
  | .orderBy column direction => s.orderBy column direction

/-- The statement after one more call. -/
def Insert.call (s : Insert) : Insert.Call → Insert
  | .intoTable table => s.intoTable table
  | .only columns => s.only columns
  | .append values => s.append values
  | .row r => s.row r

/-- The statement after one more call. -/
def Update.call (s : Update) : Update.Call → Update
  | .ofTable table => s.ofTable table
  | .assign column value => s.assign column value
  | .row r => s.row r
  | .condition c => s.condition c

/-- The statement after one more call. -/
def Delete.call (s : Delete) : Delete.Call → Delete
  | .ofTable table => s.ofTable table
  | .condition c => s.condition c

/-- The calls that make a statement, in order, for each of the four kinds. -/
inductive Calls
  | select (calls : List Select.Call)
  | insert (calls : List Insert.Call)
  | update (calls : List Update.Call)
  | delete (calls : List Delete.Call)
deriving DecidableEq

/-- The statement that the calls make. -/
def Calls.made : Calls → Manipulation
  | .select calls => .select (calls.foldl Select.call {})
  | .insert calls => .insert (calls.foldl Insert.call {})
  | .update calls => .update (calls.foldl Update.call {})
  | .delete calls => .delete (calls.foldl Delete.call {})

/-! ## Masking -/

/-- The condition with NULL for its value. -/
def Condition.masked (c : Condition) : Condition := { c with value := .null }

/-- The entry with NULL for its value. -/
def Entry.masked (e : Entry) : Entry := { e with value := .null }

/-- The row with NULL for every value. -/
def Row.masked (r : Row) : Row := ⟨r.entries.map Entry.masked⟩

/-- The fragment with NULL for its value. -/
def Fragment.masked : Fragment → Fragment
  | .text s => .text s
  | .parameter _ => .parameter .null

/-- As many NULLs as there are values.  Their number is all that a text shows of them.
    -/
def maskedValues (values : List Value) : List Value := values.map fun _ => .null

/-- The statement with NULL for every value. -/
def Select.masked (s : Select) : Select :=
  { s with conditions := s.conditions.map Condition.masked }

/-- The statement with NULL for every value. -/
def Insert.masked (s : Insert) : Insert := { s with values := maskedValues s.values }

/-- The statement with NULL for every value. -/
def Update.masked (s : Update) : Update :=
  { s with
    assignments := s.assignments.map Entry.masked
    conditions := s.conditions.map Condition.masked }

/-- The statement with NULL for every value. -/
def Delete.masked (s : Delete) : Delete :=
  { s with conditions := s.conditions.map Condition.masked }

/-- The call with NULL for every value. -/
def Select.Call.masked : Select.Call → Select.Call
  | .condition c => .condition c.masked
  | other => other

/-- The call with NULL for every value. -/
def Insert.Call.masked : Insert.Call → Insert.Call
  | .append values => .append (maskedValues values)
  | .row r => .row r.masked
  | other => other

/-- The call with NULL for every value. -/
def Update.Call.masked : Update.Call → Update.Call
  | .assign column _ => .assign column .null
  | .row r => .row r.masked
  | .condition c => .condition c.masked
  | other => other

/-- The call with NULL for every value. -/
def Delete.Call.masked : Delete.Call → Delete.Call
  | .condition c => .condition c.masked
  | other => other

/-- The statement with NULL for every value. -/
def Manipulation.masked : Manipulation → Manipulation
  | .select s => .select s.masked
  | .insert s => .insert s.masked
  | .update s => .update s.masked
  | .delete s => .delete s.masked

/-- The calls with NULL for every value. -/
def Calls.masked : Calls → Calls
  | .select calls => .select (calls.map Select.Call.masked)
  | .insert calls => .insert (calls.map Insert.Call.masked)
  | .update calls => .update (calls.map Update.Call.masked)
  | .delete calls => .delete (calls.map Delete.Call.masked)

/-! ## Masking commutes with calls -/

theorem Select.call_masked (s : Select) (c : Select.Call) :
    (s.call c).masked = s.masked.call c.masked := by
  cases c with
  | condition c =>
      simp [Select.call, Select.Call.masked, Select.condition, Select.masked]
  | ofTable | only | orderBy => rfl

theorem Insert.call_masked (s : Insert) (c : Insert.Call) :
    (s.call c).masked = s.masked.call c.masked := by
  cases c with
  | append values =>
      simp [Insert.call, Insert.Call.masked, Insert.append, Insert.masked, maskedValues]
  | row r =>
      simp [Insert.call, Insert.Call.masked, Insert.row, Insert.masked, maskedValues, Row.masked,
        Function.comp_def, Entry.masked]
  | intoTable | only => rfl

theorem Update.call_masked (s : Update) (c : Update.Call) :
    (s.call c).masked = s.masked.call c.masked := by
  cases c with
  | assign column value =>
      simp [Update.call, Update.Call.masked, Update.assign, Update.masked, Entry.masked]
  | row r => simp [Update.call, Update.Call.masked, Update.row, Update.masked, Row.masked]
  | condition c =>
      simp [Update.call, Update.Call.masked, Update.condition, Update.masked]
  | ofTable => rfl

theorem Delete.call_masked (s : Delete) (c : Delete.Call) :
    (s.call c).masked = s.masked.call c.masked := by
  cases c with
  | condition c =>
      simp [Delete.call, Delete.Call.masked, Delete.condition, Delete.masked]
  | ofTable => rfl

/-- What one step preserves, a run of steps preserves. -/
theorem foldl_masked {σ κ : Type} {call : σ → κ → σ} {maskState : σ → σ} {maskCall : κ → κ}
    (hstep : ∀ s c, maskState (call s c) = call (maskState s) (maskCall c)) (calls : List κ) :
    ∀ s, maskState (calls.foldl call s) = (calls.map maskCall).foldl call (maskState s) := by
  induction calls with
  | nil => intro s; rfl
  | cons c calls ih =>
      intro s
      rw [List.foldl_cons, ih, hstep, List.map_cons, List.foldl_cons]

/-- **MASKED CALLS MAKE THE MASKED STATEMENT.** -/
theorem Calls.made_masked (calls : Calls) : calls.masked.made = calls.made.masked := by
  cases calls with
  | select calls =>
      exact congrArg Manipulation.select (foldl_masked Select.call_masked calls {}).symm
  | insert calls =>
      exact congrArg Manipulation.insert (foldl_masked Insert.call_masked calls {}).symm
  | update calls =>
      exact congrArg Manipulation.update (foldl_masked Update.call_masked calls {}).symm
  | delete calls =>
      exact congrArg Manipulation.delete (foldl_masked Delete.call_masked calls {}).symm

/-! ## Masking keeps the text -/

/-- **THE TEXT OF A QUERY** does not depend on its values.  A parameter is written as
    the placeholder of its number, whatever it is. -/
theorem Query.write_masked (d : Dialect) (fragments : List Fragment) :
    ∀ i, write d i (fragments.map Fragment.masked) = write d i fragments := by
  induction fragments with
  | nil => intro i; rfl
  | cons f fragments ih =>
      intro i
      cases f with
      | text s => exact congrArg (s ++ ·) (ih i)
      | parameter v => exact congrArg (d.placeholder i ++ ·) (ih (i + 1))

theorem Condition.restFragments_masked (cs : List Condition) :
    restFragments (cs.map masked) = (restFragments cs).map Fragment.masked := by
  induction cs with
  | nil => rfl
  | cons c cs ih =>
      rw [List.map_cons, restFragments, restFragments, List.map_append, ih]
      rfl

theorem Condition.clause_masked (cs : List Condition) :
    clause (cs.map masked) = (clause cs).map Fragment.masked := by
  cases cs with
  | nil => rfl
  | cons c cs =>
      rw [List.map_cons, clause, clause, List.map_append, restFragments_masked]
      rfl

theorem Insert.valueFragments_masked (values : List Value) :
    valueFragments (maskedValues values) = (valueFragments values).map Fragment.masked := by
  induction values with
  | nil => rfl
  | cons v values ih =>
      cases values with
      | nil => rfl
      | cons w values => exact congrArg (fun fs => _ :: _ :: fs) ih

theorem Update.setClause_masked (entries : List Entry) :
    setClause (entries.map Entry.masked) = (setClause entries).map Fragment.masked := by
  cases entries with
  | nil => rfl
  | cons e entries =>
      simp [setClause, assignment, Entry.masked, Fragment.masked, List.flatMap_map,
        List.map_flatMap]

theorem Select.fragments_masked (s : Select) (table : String) :
    s.masked.fragments table = (s.fragments table).map Fragment.masked := by
  rw [fragments, fragments, List.map_append, List.map_cons]
  show Fragment.text _ :: Condition.clause (s.conditions.map Condition.masked) ++ [_] = _
  rw [Condition.clause_masked]
  rfl

theorem Insert.fragments_masked (s : Insert) (table : String) :
    s.masked.fragments table = (s.fragments table).map Fragment.masked := by
  rw [fragments, fragments, List.map_append, List.map_cons]
  show Fragment.text _ :: valueFragments (maskedValues s.values) ++ [_] = _
  rw [valueFragments_masked]
  rfl

theorem Update.fragments_masked (s : Update) (table : String) :
    s.masked.fragments table = (s.fragments table).map Fragment.masked := by
  rw [fragments, fragments, List.map_append, List.map_append, List.map_cons]
  show Fragment.text _ :: setClause (s.assignments.map Entry.masked)
    ++ Condition.clause (s.conditions.map Condition.masked) ++ [_] = _
  rw [setClause_masked, Condition.clause_masked]
  rfl

theorem Delete.fragments_masked (s : Delete) (table : String) :
    s.masked.fragments table = (s.fragments table).map Fragment.masked := by
  rw [fragments, fragments, List.map_append, List.map_cons]
  show Fragment.text _ :: Condition.clause (s.conditions.map Condition.masked) ++ [_] = _
  rw [Condition.clause_masked]
  rfl

/-- Fragments that differ in values only make queries of one text. -/
theorem Query.sql_ofFragments_masked (d : Dialect) (fragments : List Fragment) :
    (ofFragments d (fragments.map Fragment.masked)).sql = (ofFragments d fragments).sql :=
  write_masked d fragments 0

theorem Manipulation.fragments_masked (m : Manipulation) (table : String) :
    m.masked.fragments table = (m.fragments table).map Fragment.masked := by
  cases m with
  | select s => exact s.fragments_masked table
  | insert s => exact s.fragments_masked table
  | update s => exact s.fragments_masked table
  | delete s => exact s.fragments_masked table

/-- A statement needs the same whatever its values are. -/
theorem Manipulation.check_masked (m : Manipulation) : m.masked.check = m.check := by
  cases m with
  | select | delete => rfl
  | insert s =>
      have hlength : s.masked.values.length = s.values.length := List.length_map ..
      have hempty : s.masked.values.isEmpty = s.values.isEmpty := List.isEmpty_map ..
      rw [masked, check, check, hlength, hempty]
      rfl
  | update s =>
      have hempty : s.masked.assignments.isEmpty = s.assignments.isEmpty := List.isEmpty_map ..
      rw [masked, check, check, hempty]

/-- **MASKING KEEPS THE TEXT** of a statement, or the reason why it has none.  Neither
    looks at a value. -/
theorem Manipulation.build_masked (d : Dialect) (m : Manipulation) :
    (m.masked.build d).map Query.sql = (m.build d).map Query.sql := by
  have htable : m.masked.table? = m.table? := by cases m <;> rfl
  have hmissing : m.masked.missing = m.missing := by cases m <;> rfl
  rw [build_eq, build_eq, htable, hmissing, check_masked]
  cases givenTable m.table? m.missing with
  | error e => rfl
  | ok t =>
      cases m.check with
      | error e => rfl
      | ok _ =>
          show Except.ok (Query.ofFragments d (m.masked.fragments t)).sql = _
          rw [fragments_masked, Query.sql_ofFragments_masked]
          rfl

end Gridbase
