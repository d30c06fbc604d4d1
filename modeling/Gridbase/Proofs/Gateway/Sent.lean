import Gridbase.Proofs.Gateway.Requests

/-! # What is sent

    Every text that an operation sends is one statement over names that are checked
    (`sent_over_names`): it ends with its only semicolon, and what is not its own grammar or
    the literal of a default is a valid name as a whole.

    No other value leaves a trace.  An operation is MASKED when NULL stands for every value of
    its rows, filters and keys.  Masking commutes with reading off the requests
    (`Operation.requests_masked`), and a masked operation has one request of a kind at most
    (`Operation.eq_of_kind`), so a text depends on the kind of the request and on the masked
    operation only, and for a dataset also on the columns that its table generates. -/

namespace Gridbase

open Gridbase.Text Gridbase.Session

/-! ## Masking -/

/-- The filter with NULL for its value. -/
def Filter.masked (f : Filter) : Filter := { f with value := .null }

/-- The column with NULL for every value. -/
def DataColumn.masked (c : DataColumn) : DataColumn := { c with values := maskedValues c.values }

/-- The dataset with NULL for every value. -/
def Dataset.masked (d : Dataset) : Dataset := { d with columns := d.columns.map DataColumn.masked }

/-- The operation with NULL for every value of a row, a filter or a key.  Defaults stay.
    They are written into the text of the statement, and so is nothing else of a value.
    -/
def Operation.masked : Operation → Operation
  | getById table key _ => getById table key .null
  | get table columns filters order => get table columns (filters.map Filter.masked) order
  | add table row => add table row.masked
  | updateById table row key _ => updateById table row.masked key .null
  | updateWhere table row filters => updateWhere table row.masked (filters.map Filter.masked)
  | deleteById table key _ => deleteById table key .null
  | deleteWhere table filters => deleteWhere table (filters.map Filter.masked)
  | upsert table row key => upsert table row.masked key
  | insertDataset watch data => insertDataset watch data.masked
  | upsertDataset watch data key => upsertDataset watch data.masked key
  | other => other

namespace Request

/-- The request with NULL for every value but defaults. -/
def masked : Request → Request
  | selection s => selection s.masked
  | change (.insert s) => change (.insert s.masked)
  | change (.update s) => change (.update s.masked)
  | change (.delete s) => change (.delete s.masked)
  | other => other

/-- The text of a request, if it can be completed.  An incomplete one is never sent. -/
def text? (r : Request) : Option String := (r.build.map Query.sql).toOption

/-- **MASKING KEEPS THE TEXT** of a request. -/
theorem text?_masked (r : Request) : r.masked.text? = r.text? := by
  have hmanipulation (m : Manipulation) :
      ((m.masked.build .sqlite).map Query.sql).toOption
        = ((m.build .sqlite).map Query.sql).toOption := by rw [m.build_masked]
  cases r with
  | selection s => exact hmanipulation (.select s)
  | change s =>
      cases s with
      | insert s => exact hmanipulation (.insert s)
      | update s => exact hmanipulation (.update s)
      | delete s => exact hmanipulation (.delete s)
      | createTable | createDesigned | renameTable | dropTable => rfl

/-- The kinds of requests.  Bulk operations send many requests, but few kinds of them.
    -/
inductive Kind
  | selection
  | insertion
  | update
  | removal
  | creation
  | renaming
  | drop
deriving DecidableEq

/-- The kind of a request. -/
def kind : Request → Kind
  | selection _ => .selection
  | change (.insert _) => .insertion
  | change (.update _) => .update
  | change (.delete _) => .removal
  | change (.createTable _) | change (.createDesigned _) => .creation
  | change (.renameTable ..) => .renaming
  | change (.dropTable _) => .drop

end Request

namespace Operation

/-- The values that an operation writes into a statement: the defaults of the columns
    that it makes. -/
def literals : Operation → List Value
  | createTableWith _ columns => columns.filterMap ColumnClause.defaultValue
  | _ => []

/-- The text of the requests of a kind. -/
def text? (generated : List String) (op : Operation) (kind : Request.Kind) : Option String :=
  ((op.requests generated).find? fun r => r.kind = kind).bind Request.text?

end Operation

/-! ## Masking commutes with requests -/

theorem Filter.conditions_masked (filters : List Filter) :
    conditions (filters.map masked) = (conditions filters).map Condition.masked := by
  cases filters with
  | nil => rfl
  | cons f filters => simp [conditions, masked, Condition.masked, Function.comp_def]

theorem Row.get?_masked (row : Row) (name : String) :
    row.masked.get? name = (row.get? name).map fun _ => .null := by
  simp [Row.get?, Row.masked, List.find?_map, Function.comp_def, Entry.masked]

theorem Row.set_masked (row : Row) (name : String) (v : Value) :
    (row.set name v).masked = row.masked.set name .null := by
  have hset : ∀ entries : List Entry, (setEntry name v entries).map Entry.masked
      = setEntry name .null (entries.map Entry.masked) := by
    intro entries
    induction entries with
    | nil => rfl
    | cons e entries ih =>
        rw [List.map_cons, setEntry, setEntry]
        show _ = if sameName e.name name then _ else _
        split
        · rfl
        · rw [List.map_cons, ih]
  exact congrArg Row.mk (hset row.entries)

theorem Row.ofList_masked (pairs : List (String × Value)) :
    (Row.ofList pairs).masked = Row.ofList (pairs.map fun p => (p.1, .null)) :=
  foldl_masked (fun row (p : String × Value) => Row.set_masked row p.1 p.2) pairs Row.empty

namespace Dataset

theorem shortest_masked (columns : List DataColumn) :
    shortest (columns.map DataColumn.masked) = shortest columns := by
  have hlength (c : DataColumn) : c.masked.values.length = c.values.length := List.length_map ..
  induction columns with
  | nil => rfl
  | cons c columns ih =>
      cases columns with
      | nil => exact hlength c
      | cons c' columns => exact congrArg₂ min (hlength c) ih

theorem names_masked (d : Dataset) : d.masked.names = d.names := by
  simp [names, masked, DataColumn.masked, Function.comp_def]

/-- The row of NULLs under the names of the columns.  Every row of a masked dataset is
    this one. -/
def maskedRow (d : Dataset) : Row := Row.ofList (d.columns.map fun c => (c.name, .null))

/-- Masked rows are all the same. -/
theorem map_masked_rows (d : Dataset) :
    d.rows.map Row.masked = List.replicate d.rowCount d.maskedRow := by
  rw [rows_eq, List.map_map, List.eq_replicate_iff]
  refine ⟨by rw [List.length_map, List.length_range], List.forall_mem_map.mpr fun i hi => ?_⟩
  rw [Function.comp_apply, Row.ofList_masked, rowEntries_of_lt (List.mem_range.mp hi), List.map_map]
  rfl

/-- **THE ROWS OF A MASKED DATASET** are its rows, masked. -/
theorem rows_masked (d : Dataset) : d.masked.rows = d.rows.map Row.masked := by
  have hcount : d.masked.rowCount = d.rowCount := shortest_masked d.columns
  have hvalue (vs : List Value) (i : Nat) : ((maskedValues vs)[i]?).getD .null = .null := by
    rw [maskedValues, List.getElem?_map]
    cases vs[i]? <;> rfl
  rw [map_masked_rows, rows_eq, List.eq_replicate_iff]
  refine ⟨by rw [List.length_map, List.length_range, hcount], ?_⟩
  refine List.forall_mem_map.mpr fun i hi => ?_
  rw [rowEntries_of_lt (List.mem_range.mp hi), masked, List.map_map, maskedRow]
  refine congrArg Row.ofList (List.map_congr_left fun c _ => ?_)
  exact congrArg (Prod.mk c.name) (hvalue c.values i)

theorem eq_maskedRow {d : Dataset} {row : Row} (h : row ∈ d.masked.rows) : row = d.maskedRow := by
  rw [rows_masked, map_masked_rows] at h
  exact List.eq_of_mem_replicate h

end Dataset

namespace Operation

theorem addition_masked (table : String) (row : Row) :
    Gateway.addition table row.masked = (Gateway.addition table row).masked := by
  simp [Gateway.addition, Insert.row, Insert.masked, Row.masked, maskedValues, Entry.masked,
    Function.comp_def]

theorem putRequests_masked (table : String) (row : Row) (key : String) :
    putRequests table row.masked key = (putRequests table row key).map Request.masked := by
  rw [putRequests, putRequests, Row.get?_masked]
  cases row.get? key with
  | none => rfl
  | some id =>
      show [_, Request.change (.insert (Gateway.addition table row.masked)), _] = _
      rw [addition_masked]
      rfl

theorem rowInsert_masked (table : String) (columns : List String) (row : Row) :
    Gateway.rowInsert table columns row.masked = (Gateway.rowInsert table columns row).masked := by
  have hvalue (name : String) : (row.masked.get? name).getD .null = .null := by
    rw [Row.get?_masked]
    cases row.get? name <;> rfl
  simp only [Gateway.rowInsert, Insert.masked, maskedValues, List.map_map, hvalue]
  rfl

/-- **MASKING COMMUTES** with reading off the requests.  It does not matter when the
    values are taken away, so the texts can be read off before there is any value. -/
theorem requests_masked (generated : List String) (op : Operation) :
    op.masked.requests generated = (op.requests generated).map Request.masked := by
  -- masking goes through each builder, since none of them looks at a value
  cases op with
  | createTable table columns key =>
      show (createTable table columns key).requests generated = _
      rw [requests]
      cases Gateway.newTable table columns key <;> rfl
  | createTableWith | createDesigned | renameTable | dropTable | getAll | getById | deleteById
  | columnInfo | columnTypes | updateById => rfl
  | get table columns filters order =>
      exact congrArg (fun conditions => [Request.selection
        { table := some table, columns, conditions, order }]) (Filter.conditions_masked filters)
  | add table row =>
      exact congrArg (fun s => [Request.change (.insert s)]) (addition_masked table row)
  | updateWhere table row filters =>
      exact congrArg (fun conditions => [Request.change (.update
        { table := some table, assignments := row.masked.entries, conditions })])
        (Filter.conditions_masked filters)
  | deleteWhere table filters =>
      exact congrArg (fun conditions => [Request.change (.delete
        { table := some table, conditions })]) (Filter.conditions_masked filters)
  | upsert table row key => exact putRequests_masked table row key
  | insertDataset watch data =>
      show data.masked.rows.map (fun row => Request.change (.insert (Gateway.rowInsert data.table
        (data.masked.names.filter _) row))) = _
      rw [Dataset.rows_masked, Dataset.names_masked, requests, List.map_map, List.map_map]
      refine List.map_congr_left fun row _ => ?_
      exact congrArg (fun s => Request.change (.insert s)) (rowInsert_masked _ _ row)
  | upsertDataset watch data key =>
      show data.masked.rows.flatMap (fun row => putRequests data.table row key) = _
      rw [Dataset.rows_masked, requests, List.flatMap_map, List.map_flatMap]
      exact List.flatMap_congr fun row _ => putRequests_masked _ row key

/-- The three requests for a row are of three kinds. -/
theorem eq_of_kind_putRequests {table key : String} {row : Row} {a b : Request}
    (ha : a ∈ putRequests table row key) (hb : b ∈ putRequests table row key)
    (hkind : a.kind = b.kind) : a = b := by
  rw [putRequests] at ha hb
  cases hid : row.get? key with
  | none =>
      rw [hid] at ha
      exact absurd ha List.not_mem_nil
  | some id =>
      rw [hid] at ha hb
      simp only [List.mem_cons, List.not_mem_nil, or_false] at ha hb
      rcases ha with rfl | rfl | rfl <;> rcases hb with rfl | rfl | rfl <;>
        first | rfl | cases hkind

/-- **ONE REQUEST OF A KIND**: the masked operation has no two of them.  A dataset has
    many rows, but they all have the same columns, and without values they are one row.
    -/
theorem eq_of_kind {generated : List String} {op : Operation} {a b : Request}
    (ha : a ∈ op.masked.requests generated) (hb : b ∈ op.masked.requests generated)
    (hkind : a.kind = b.kind) : a = b := by
  -- one request to an operation, or all rows alike once their values are masked
  cases op with
  | createTable table columns key =>
      obtain ⟨create, hnew, rfl⟩ := mem_requests_createTable ha
      obtain ⟨create', hnew', rfl⟩ := mem_requests_createTable hb
      rw [Except.ok.inj (hnew.symm.trans hnew')]
  | createTableWith | createDesigned | renameTable | dropTable | getAll | getById | deleteById
  | updateById | get | add | updateWhere | deleteWhere =>
      exact (List.mem_singleton.mp ha).trans (List.mem_singleton.mp hb).symm
  | columnInfo | columnTypes => exact absurd ha List.not_mem_nil
  | upsert table row key => exact eq_of_kind_putRequests ha hb hkind
  | insertDataset watch data =>
      obtain ⟨row, hrow, rfl⟩ := List.mem_map.mp ha
      obtain ⟨row', hrow', rfl⟩ := List.mem_map.mp hb
      rw [Dataset.eq_maskedRow hrow, Dataset.eq_maskedRow hrow']
  | upsertDataset watch data key =>
      obtain ⟨row, hrow, ha⟩ := List.mem_flatMap.mp ha
      obtain ⟨row', hrow', hb⟩ := List.mem_flatMap.mp hb
      rw [Dataset.eq_maskedRow hrow] at ha
      rw [Dataset.eq_maskedRow hrow'] at hb
      exact eq_of_kind_putRequests ha hb hkind

/-- A query of a request has the text that the masked operation has for its kind.  The
    request itself differs from that of the masked operation, but only in values. -/
theorem text?_kind {generated : List String} {op : Operation} {r : Request} {q : Query}
    (hr : r ∈ op.requests generated) (hbuild : r.build = .ok q) :
    op.masked.text? generated r.kind = some q.sql := by
  have hmasked : r.masked ∈ op.masked.requests generated := by
    rw [requests_masked]
    exact List.mem_map_of_mem hr
  have hkind : r.masked.kind = r.kind := by
    rcases r with s | s
    · rfl
    · cases s <;> rfl
  obtain ⟨r', hfind⟩ : ∃ r', (op.masked.requests generated).find? (fun x => x.kind = r.kind)
      = some r' :=
    Option.isSome_iff_exists.mp
      (List.find?_isSome.mpr ⟨r.masked, hmasked, decide_eq_true hkind⟩)
  -- the first request of the kind is the one, up to its values
  have hsame : r' = r.masked := by
    refine eq_of_kind (List.mem_of_find?_eq_some hfind) hmasked ?_
    rw [hkind]
    simpa using List.find?_some hfind
  rw [text?, hfind, hsame, Option.bind_some, Request.text?_masked, Request.text?, hbuild]
  rfl

end Operation

/-! ## What is sent -/

theorem Allowed.mono {names names' : List String} {literals literals' : List Value} {t : Token}
    (hnames : names ⊆ names') (hliterals : literals ⊆ literals')
    (h : Allowed names literals t) : Allowed names' literals' t := by
  cases h with
  | grammar h => exact .grammar h
  | bare h valid => exact .bare (hnames h) valid
  | inQuotes h valid => exact .inQuotes (hnames h) valid
  | literal h ht => exact .literal (hliterals h) ht

theorem OneStatement.mono {names names' : List String} {literals literals' : List Value}
    {sql : String} (hnames : names ⊆ names') (hliterals : literals ⊆ literals')
    (h : OneStatement names literals sql) : OneStatement names' literals' sql := by
  obtain ⟨hends, ts, hts, hnone, hallowed⟩ := h
  exact ⟨hends, ts, hts, hnone, fun t ht => (hallowed t ht).mono hnames hliterals⟩

theorem Operation.literals_putRequests {table key : String} {row : Row} {r : Request}
    (h : r ∈ putRequests table row key) : r.literals = [] := by
  obtain ⟨id, rfl | rfl | rfl⟩ := mem_putRequests h <;> rfl

/-- The literals of the requests are those of the operation. -/
theorem Operation.literals_requests {generated : List String} {op : Operation} {r : Request}
    (h : r ∈ op.requests generated) : r.literals ⊆ op.literals := by
  -- only the default of a column is written out, and only one operation has columns with
  -- defaults
  cases op with
  | createTable table columns key =>
      obtain ⟨create, hnew, rfl⟩ := mem_requests_createTable h
      obtain ⟨_, -, hnew⟩ := bind_eq_ok.mp hnew
      obtain ⟨_, -, hnew⟩ := bind_eq_ok.mp hnew
      obtain ⟨_, -, hnew⟩ := bind_eq_ok.mp hnew
      obtain ⟨key', -, hnew⟩ := bind_eq_ok.mp hnew
      obtain rfl := Except.ok.inj hnew
      simp [Request.literals, Gateway.keyedClause, List.filterMap_map]
  | createTableWith | createDesigned | renameTable | dropTable | getAll | getById | deleteById
  | updateById | get | add | updateWhere | deleteWhere =>
      rw [List.mem_singleton.mp h]
      exact List.Subset.refl _
  | upsert table row key => rw [literals_putRequests h]; exact List.nil_subset _
  | insertDataset watch data =>
      obtain ⟨row, -, rfl⟩ := List.mem_map.mp h
      exact List.nil_subset _
  | upsertDataset watch data key =>
      obtain ⟨row, -, h⟩ := List.mem_flatMap.mp h
      rw [literals_putRequests h]
      exact List.nil_subset _
  | columnInfo | columnTypes => exact absurd h List.not_mem_nil

namespace Gateway

/-- **WHAT IS SENT** by an operation is one statement each time, over valid names of the operation
    as whole tokens; and its text is given by its kind, by the operation without its values
    and by the columns of a dataset that the table generates. -/
theorem sent_over_names (g : Gateway) (op : Operation) (s : Session) :
    ∃ new, ((op.action g).run s).2.sent = s.sent ++ new ∧ ∀ q ∈ new,
      OneStatement op.names op.literals q.sql
        ∧ ∃ kind, op.masked.text? (op.generatedIn s.database) kind = some q.sql := by
  obtain ⟨new, hsent, hqueries⟩ := (within_action g op s).sent
  refine ⟨new, hsent, fun q hq => ?_⟩
  obtain ⟨r, ⟨hr, hnamed⟩, hbuild⟩ := hqueries q hq
  have hone := Request.oneStatement hbuild hnamed
  exact ⟨hone.mono (Operation.names_requests hr) (Operation.literals_requests hr),
    r.kind, Operation.text?_kind hr hbuild⟩

/-- The table of people with a generated key. -/
def numberedPeople : Table :=
  { people with
    definition := " (id INTEGER PRIMARY KEY AUTOINCREMENT, name TEXT)"
    generated := true }

/-- A session with that table. -/
def numberedSession : Session where
  database := { tables := [numberedPeople], sequence := some [] }

/-- One person with a number. -/
def newcomer : Dataset :=
  ((Dataset.empty "people").pushColumn "id" [.int 5]).pushColumn "name" [.text "Ada"]

/-- The text of an insertion is not given by its names alone: a generated column is left
    out of it. -/
theorem sent_not_by_names_alone :
    ¬ ∀ (g : Gateway) (op : Operation) (s₁ s₂ : Session) (r₁ r₂ : Request) (q₁ q₂ : Query),
        (∀ table columns, op ≠ .createTableWith table columns) →
        r₁.kind = r₂.kind → r₁.build = .ok q₁ → r₂.build = .ok q₂ →
        ((op.action g).run s₁).2.sent = s₁.sent ++ [q₁] →
        ((op.action g).run s₂).2.sent = s₂.sent ++ [q₂] → q₁.sql = q₂.sql := by
  intro hclaim
  have hsame := hclaim ⟨.ok "memory"⟩ (.insertDataset .never newcomer) peopleSession numberedSession
    (.change (.insert ⟨some "people", ["id", "name"], [.int 5, .text "Ada"]⟩))
    (.change (.insert ⟨some "people", ["name"], [.text "Ada"]⟩)) _ _ nofun rfl rfl rfl
    (by decide +kernel) (by decide +kernel)
  exact absurd hsame (by decide +kernel)

end Gateway

end Gridbase
