import Gridbase.Proofs.Gateway.Introspection
import Gridbase.Proofs.Gateway.Requests

/-! # Words among valid names

    A designed table is made with its names in quotes, and every later operation uses them
    bare.  Valid names may be words of the grammar: in quotes they are names, and bare they
    need not be.

    * The words of an operation are those of its requests, each at its place
      (`Operation.words`).
    * An operation MISREADS a word if it fails because the database refuses the text at some
      token (`Misreads`).  Then one of its words is no name at its place
      (`exists_refused_of_misreads`).
    * An operation with such a word never succeeds (`fails_of_refused`).
    * So a designed table can be used by all of its names exactly if none of them is a keyword
      and none of its columns begins an expression of its own (`keywords_are_misread`).

    Words for the clock, the row number and truth values are not refused, so they are no matter
    here; what is read for them is left out of the store. -/

namespace Gridbase

open Gridbase.Text Gridbase.Session

/-- **EVERY KEYWORD PASSES THE CHECKS** on names, in whatever case it is written, and so does
    every word that begins an expression of its own. -/
theorem isValidName_of_not_isReadable {word : String} (h : Word.isReadable word = false) :
    Dialect.sqlite.isValidName word = true := by
  have hlisted : ∀ k ∈ Word.keywords ++ Word.operators,
      Dialect.sqlite.isValidName k = true := by decide +kernel
  have hany : (Word.keywords ++ Word.operators).any (fun k => sameName k word) = true := by
    rw [List.any_append, ← Word.isKeyword, ← Word.isOperator]
    rw [Word.isReadable] at h
    cases hkeyword : Word.isKeyword word with
    | true => rfl
    | false =>
        rw [hkeyword] at h
        simpa using h
  obtain ⟨k, hk, hsame⟩ := List.any_eq_true.mp hany
  rw [Dialect.isValidName, ← Identifier.isValid_congr hsame]
  exact hlisted k hk

theorem Word.refusedAt?_of_isKeyword {w : Word} (h : isKeyword w.text = true) :
    w.refusedAt? = some w.text := by
  rw [refusedAt?, if_pos h]

/-! ## Words of requests -/

namespace Request

/-- The words of a request, each with the place where it stands, in the order of the
    text. -/
def words : Request → List Word
  | selection s => s.words
  | change s => s.words

/-- The request makes no table.  All of its names stand bare in its text. -/
def OnTable : Request → Prop
  | change (.createTable _) | change (.createDesigned _) => False
  | _ => True

/-- **A REQUEST CHECKS ITS WORDS FIRST.** -/
theorem checksFirst {r : Request} (h : r.OnTable) (db : Database) :
    Database.ChecksFirst (r.answer db) r.words := by
  cases r with
  | selection s => exact (db.checksFirst_select s).bind fun _ => plain_ok _
  | change s =>
      cases s with
      | insert s => exact (db.checksFirst_insert s).bind fun _ => plain_ok _
      | update s => exact (db.checksFirst_update s).bind fun _ => plain_ok _
      | delete s => exact (db.checksFirst_delete s).bind fun _ => plain_ok _
      | createTable | createDesigned => exact h.elim
      | renameTable old new =>
          exact ((db.checksFirst_rename old new).bind fun _ => plain_ok _).bind fun _ => plain_ok _
      | dropTable table =>
          exact ((db.checksFirst_drop table).bind fun _ => plain_ok _).bind fun _ => plain_ok _

/-- All names of such a request are among its words.  Requests that make a table are
    left out: they quote some names, and those are never refused. -/
theorem names_subset_words {r : Request} (h : r.OnTable) :
    r.names ⊆ r.words.map Word.text := by
  have htable {table : Option String} {name : String} (h : name ∈ table.toList) :
      name = table.getD "" := by
    rw [Option.mem_toList.mp h]
    rfl
  intro name hname
  -- the words are the names in the order of the text; only the order differs
  cases r with
  | selection s =>
      have horder : (s.order.map Word.ofOrder).map Word.text = s.order.map OrderTerm.column :=
        List.map_map ..
      rw [words, Select.words, List.map_append, List.map_cons, List.map_append,
        Word.map_text_listed, Word.map_text_conditions, horder]
      simp only [names, Manipulation.names, List.mem_append, List.mem_cons] at hname ⊢
      rcases hname with ((hfrom | hcolumn) | hcondition) | horder
      · exact Or.inr (Or.inl (htable hfrom))
      · exact Or.inl hcolumn
      · exact Or.inr (Or.inr (Or.inl hcondition))
      · exact Or.inr (Or.inr (Or.inr horder))
  | change s =>
      cases s with
      | insert s =>
          rw [words, Statement.words, Insert.words, List.map_cons, Word.map_text_names]
          rcases List.mem_append.mp hname with hinto | hcolumn
          · exact List.mem_cons.mpr (Or.inl (htable hinto))
          · exact List.mem_cons_of_mem _ hcolumn
      | update s =>
          have hassigned : (s.assignments.map fun e => (⟨e.name, .name⟩ : Word)).map Word.text
              = s.assignments.map Entry.name := List.map_map ..
          rw [words, Statement.words, Update.words, List.map_cons, List.map_append, hassigned,
            Word.map_text_conditions]
          simp only [names, Manipulation.names, List.mem_append, List.mem_cons] at hname ⊢
          rcases hname with (htarget | hassigned) | hcondition
          · exact Or.inl (htable htarget)
          · exact Or.inr (Or.inl hassigned)
          · exact Or.inr (Or.inr hcondition)
      | delete s =>
          rw [words, Statement.words, Delete.words, List.map_cons, Word.map_text_conditions]
          rcases List.mem_append.mp hname with hfrom | hcondition
          · exact List.mem_cons.mpr (Or.inl (htable hfrom))
          · exact List.mem_cons_of_mem _ hcondition
      | createTable | createDesigned => exact h.elim
      | renameTable | dropTable => exact hname

/-- No database can do what is requested with a word that is no name at its place. -/
theorem error_of_refused {r : Request} (h : r.OnTable) {w : Word} (hw : w ∈ r.words)
    (hrefused : w.refusedAt? ≠ none) (db : Database) : ∃ fault, r.answer db = .error fault := by
  obtain ⟨token, htoken⟩ := (checksFirst h db).error_of_refused hw hrefused
  exact ⟨_, htoken⟩

end Request

/-! ## Operations on an existing table -/

namespace Operation

/-- The table that an operation on existing tables uses, with the columns that it names.
    None is given for operations that make a table, describe one, or work on a whole
    dataset. -/
def used? : Operation → Option (String × List String)
  | getAll table | renameTable table _ | dropTable table => some (table, [])
  | getById table key _ | deleteById table key _ => some (table, [key])
  | get table columns filters order =>
      some (table, columns ++ (filters.map Filter.column ++ order.map OrderTerm.column))
  | add table row => some (table, row.names)
  | updateById table row key _ | upsert table row key => some (table, row.names ++ [key])
  | updateWhere table row filters => some (table, row.names ++ filters.map Filter.column)
  | deleteWhere table filters => some (table, filters.map Filter.column)
  | _ => none

/-- The operation is on the table of a design, and names columns of the design only. -/
def Uses (t : TableDesign) (op : Operation) : Prop :=
  ∃ columns, op.used? = some (t.tableName, columns) ∧ columns ⊆ t.columns.map ColumnDesign.name

/-- Such an operation makes no table. -/
theorem onTable_of_used {op : Operation} {table : String} {columns : List String}
    (h : op.used? = some (table, columns)) {generated : List String} {r : Request}
    (hr : r ∈ op.requests generated) : r.OnTable := by
  cases op with
  | renameTable | dropTable | getAll | getById | get | add | updateById | updateWhere | deleteById
  | deleteWhere =>
      rw [List.mem_singleton.mp hr]
      exact trivial
  | upsert table row key =>
      obtain ⟨id, rfl | rfl | rfl⟩ := mem_putRequests hr <;> exact trivial
  | createTable | createTableWith | createDesigned | insertDataset | upsertDataset | columnInfo
  | columnTypes => exact nomatch h

/-- Such an operation learns nothing about its requests from the database. -/
theorem requests_of_used {op : Operation} {table : String} {columns : List String}
    (h : op.used? = some (table, columns)) (generated : List String) :
    op.requests generated = op.requests [] := by
  cases op with
  | createTable | createTableWith | createDesigned | insertDataset | upsertDataset | columnInfo
  | columnTypes => exact nomatch h
  | _ => rfl

/-- The words of an operation, each at its place in one of the texts that it may send. -/
def words (op : Operation) : List Word := (op.requests []).flatMap Request.words

/-- The two changes have the same words, but for the condition of the update. -/
theorem words_change (table key : String) (row : Row) (id : Value) :
    (Gateway.change table key row id).words
      = (Gateway.addition table row).words ++ [Word.ofCondition (Condition.is key id)] := by
  have hnames : (Gateway.addition table row).columns = row.entries.map Entry.name := rfl
  rw [Insert.words, hnames, List.map_map]
  rfl

theorem words_putRequests {table key : String} {row : Row} {id : Value}
    (hid : row.get? key = some id) :
    (putRequests table row key).flatMap Request.words
      = (Gateway.lookup table key id).words ++ ((Gateway.addition table row).words
        ++ (Gateway.change table key row id).words) := by
  rw [putRequests, hid]
  simp only [List.flatMap_cons, List.flatMap_nil, List.append_nil, Request.words, Statement.words]

/-- **EVERY NAME IS A WORD** of the operation, save that an upsert without a value for its key
    sends nothing at all. -/
theorem names_subset_words {op : Operation} {table : String} {columns : List String}
    (h : op.used? = some (table, columns))
    (hkey : ∀ table row key, op = .upsert table row key → row.get? key ≠ none) :
    op.names ⊆ op.words.map Word.text := by
  have hrequest (r : Request) (hr : r ∈ op.requests []) :
      r.names ⊆ op.words.map Word.text := by
    refine List.Subset.trans (Request.names_subset_words (onTable_of_used h hr)) ?_
    exact List.map_subset _ fun w hw => List.mem_flatMap.mpr ⟨r, hr, hw⟩
  cases op with
  | renameTable | dropTable | getAll | getById | add | updateById | deleteById =>
      exact hrequest _ (List.mem_singleton_self _)
  | get =>
      rw [← names_get]
      exact hrequest _ (List.mem_singleton_self _)
  | updateWhere =>
      rw [← names_updateWhere]
      exact hrequest _ (List.mem_singleton_self _)
  | deleteWhere =>
      rw [← names_deleteWhere]
      exact hrequest _ (List.mem_singleton_self _)
  | upsert table row key =>
      cases hid : row.get? key with
      | none => exact absurd hid (hkey table row key rfl)
      | some id =>
          -- the update alone has all the names
          refine hrequest (.change (.update (Gateway.change table key row id))) ?_
          rw [requests, putRequests, hid]
          exact List.mem_cons_of_mem _ (List.mem_cons_of_mem _ (List.mem_singleton_self _))
  | createTable | createTableWith | createDesigned | insertDataset | upsertDataset | columnInfo
  | columnTypes => cases h

end Operation

namespace Gateway

/-- The operation fails because the database refuses a text at this token.  No other
    failure has the message of such a refusal. -/
def Misreads (g : Gateway) (op : Operation) (s : Session) (token : String) : Prop :=
  ((op.action g).run s).1 = .error (StoreFault.unexpected token).toFailure

/-- **ONLY WORDS THAT ARE NO NAMES ARE MISREAD** by operations on existing tables.  The
    text was refused at one of the words, and the words are those of the operation
    whatever the session is. -/
theorem exists_refused_of_misreads {g : Gateway} (haddress : g.checkAddress = .ok ())
    {op : Operation} {table : String} {columns : List String}
    (hused : op.used? = some (table, columns)) {s : Session} {token : String}
    (h : Misreads g op s token) : ∃ w ∈ op.words, w.refusedAt? = some token := by
  rcases (within_action g op s).failed _ h with
    (hreported | ⟨missing, hmissing⟩ | hconnection) | ⟨r, fault, ⟨hr, -⟩, ⟨db, hfails⟩, hsame⟩
  · rw [StoreFault.reported?_toFailure] at hreported
    exact nomatch hreported
  · -- the catalog begins its message with other characters
    have hmessage := congrArg Failure.reported? hmissing
    rw [StoreFault.reported?_toFailure] at hmessage
    have hbegins := StoreFault.begins_unexpected token
    rw [Option.some.inj hmessage] at hbegins
    have hother : Begins ("Table '" ++ missing ++ "' does not exist.") "Ta" :=
      .append (.append ⟨_, rfl⟩ _) _
    exact absurd (hbegins.eq_of_length hother rfl) (by decide)
  · rw [haddress] at hconnection
    exact nomatch hconnection
  · obtain rfl := StoreFault.unexpected_of_toFailure hsame.symm
    rw [Operation.requests_of_used hused] at hr
    obtain ⟨w, hw, htoken⟩ :=
      (Request.checksFirst (Operation.onTable_of_used hused hr) db).exists_refused hfails
    exact ⟨w, List.mem_flatMap.mpr ⟨r, hr, hw⟩, htoken⟩

/-! ## Operations that never succeed -/

/-- The action fails in every session, whatever the database holds and whatever was sent
    before. -/
def Fails {α : Type} (x : Action α) : Prop := ∀ s, ∃ f, (x.run s).1 = .error f

section

variable {α β : Type} {g : Gateway} {x : Action α} {k : α → Action β}

/-- A chain fails if its first step does. -/
theorem Fails.andThen (h : Fails x) : Fails (x >>= k) := by
  intro s
  obtain ⟨f, hf⟩ := h s
  rw [run_bind]
  cases hrun : x.run s with
  | mk result s₁ =>
      rw [hrun] at hf
      obtain rfl : result = .error f := hf
      exact ⟨f, rfl⟩

/-- A chain fails if whatever follows its first step does. -/
theorem fails_bind (h : ∀ a, Fails (k a)) : Fails (x >>= k) := by
  intro s
  rw [run_bind]
  cases x.run s with
  | mk result s₁ =>
      cases result with
      | error f => exact ⟨f, rfl⟩
      | ok a => exact h a s₁

theorem fails_send {statement : Statement}
    (h : ∀ db, ∃ fault, (Request.change statement).answer db = .error fault) :
    Fails (send statement) := by
  intro s
  cases hbuild : statement.build .sqlite with
  | error cause =>
      rw [send, hbuild]
      exact ⟨_, rfl⟩
  | ok q =>
      obtain ⟨fault, hfault⟩ := h s.database
      rw [run_send hbuild]
      rw [Request.answer] at hfault
      cases hexecute : s.database.execute statement with
      | error fault => exact ⟨_, rfl⟩
      | ok result =>
          rw [hexecute] at hfault
          cases hfault

theorem fails_ask {select : Select}
    (h : ∀ db, ∃ fault, (Request.selection select).answer db = .error fault) :
    Fails (ask select) := by
  intro s
  cases hbuild : select.build .sqlite with
  | error cause =>
      rw [ask, hbuild]
      exact ⟨_, rfl⟩
  | ok q =>
      obtain ⟨fault, hfault⟩ := h s.database
      rw [run_ask hbuild]
      rw [Request.answer] at hfault
      cases hselect : s.database.select select with
      | error fault => exact ⟨_, rfl⟩
      | ok rows =>
          rw [hselect] at hfault
          cases hfault

variable (haddress : g.checkAddress = .ok ()) {w : Word} (hrefused : w.refusedAt? ≠ none)
include hrefused

theorem fails_send_of_refused {statement : Statement} (htable : (Request.change statement).OnTable)
    (hw : w ∈ statement.words) : Fails (send statement) :=
  fails_send (Request.error_of_refused htable hw hrefused)

theorem fails_ask_of_refused {select : Select} (hw : w ∈ select.words) : Fails (ask select) :=
  have hwords : w ∈ (Request.selection select).words := hw
  fails_ask (Request.error_of_refused trivial hwords hrefused)

/-- Putting a row needs the words of all three statements.  Which of the last two is
    sent depends on the table, but either of them has all the words of the row. -/
theorem fails_put_of_refused {table key : String} {row : Row}
    (hw : w ∈ (Operation.putRequests table row key).flatMap Request.words) :
    Fails (put table row key) := by
  rw [put]
  cases hid : row.get? key with
  | none => exact fun s => ⟨_, rfl⟩
  | some id =>
      rw [Operation.words_putRequests hid] at hw
      by_cases hlookup : w ∈ (lookup table key id).words
      · have hask : Fails (ask (lookup table key id)) := fails_ask_of_refused hrefused hlookup
        exact hask.andThen
      · -- the lookup has the condition too, so that both changes have the word
        have hcondition : w ≠ Word.ofCondition (Condition.is key id) := by
          rintro rfl
          exact hlookup (by simp [lookup, Select.words])
        have hadded : w ∈ (addition table row).words := by
          rw [Operation.words_change] at hw
          simpa [hlookup, hcondition] using hw
        have hchanged : w ∈ (change table key row id).words := by
          rw [Operation.words_change]
          exact List.mem_append_left _ hadded
        have hinsert : Fails (send (.insert (addition table row))) :=
          fails_send_of_refused hrefused trivial hadded
        have hupdate : Fails (send (.update (change table key row id))) :=
          fails_send_of_refused hrefused trivial hchanged
        refine fails_bind fun found => ?_
        split
        · exact hinsert.andThen.andThen
        · exact hupdate.andThen.andThen

include haddress

theorem fails_run_of_refused {statement : Statement} (htable : (Request.change statement).OnTable)
    (hw : w ∈ statement.words) : Fails (g.run statement) := by
  rw [run_eq_send haddress]
  exact fails_send_of_refused hrefused htable hw

theorem fails_query_of_refused {select : Select} (hw : w ∈ select.words) :
    Fails (g.query select) := by
  rw [query_eq_ask haddress]
  exact fails_ask_of_refused hrefused hw

/-- **WITH A WORD THAT IS NO NAME** no operation on an existing table ever succeeds.  A
    word that is refused in one text of an operation is refused in one that is always
    sent. -/
theorem fails_of_refused {op : Operation} {table : String} {columns : List String}
    (hused : op.used? = some (table, columns)) (hw : w ∈ op.words) : Fails (op.action g) := by
  obtain ⟨r, hr, hword⟩ := List.mem_flatMap.mp hw
  -- each operation has one request behind its checks, which may fail earlier
  cases op with
  | renameTable old new =>
      obtain rfl := List.mem_singleton.mp hr
      have hrun : Fails (g.run (.renameTable old new)) :=
        fails_run_of_refused haddress hrefused trivial hword
      exact fails_bind fun _ => fails_bind fun _ => hrun.andThen
  | dropTable table =>
      obtain rfl := List.mem_singleton.mp hr
      have hrun : Fails (g.run (.dropTable table)) :=
        fails_run_of_refused haddress hrefused trivial hword
      exact fails_bind fun _ => hrun.andThen
  | getAll table =>
      obtain rfl := List.mem_singleton.mp hr
      exact fails_bind fun _ => fails_query_of_refused haddress hrefused hword
  | getById table key id =>
      obtain rfl := List.mem_singleton.mp hr
      have hquery : Fails (g.query { table := some table, conditions := [Condition.is key id] }) :=
        fails_query_of_refused haddress hrefused hword
      exact fails_bind fun _ => fails_bind fun _ => hquery.andThen
  | get table columns filters order =>
      obtain rfl := List.mem_singleton.mp hr
      refine fails_bind fun _ => fails_bind fun _ => fails_bind fun _ => fails_bind fun _ => ?_
      exact fails_query_of_refused haddress hrefused hword
  | add table row =>
      obtain rfl := List.mem_singleton.mp hr
      refine fails_bind fun _ => fails_bind fun _ => ?_
      exact fails_run_of_refused haddress hrefused trivial hword
  | updateById table row key id =>
      obtain rfl := List.mem_singleton.mp hr
      refine fails_bind fun _ => fails_bind fun _ => fails_bind fun _ => ?_
      exact fails_run_of_refused haddress hrefused trivial hword
  | updateWhere table row filters =>
      obtain rfl := List.mem_singleton.mp hr
      refine fails_bind fun _ => fails_bind fun _ => fails_bind fun _ => fails_bind fun _ => ?_
      exact fails_run_of_refused haddress hrefused trivial hword
  | deleteById table key id =>
      obtain rfl := List.mem_singleton.mp hr
      refine fails_bind fun _ => fails_bind fun _ => ?_
      exact fails_run_of_refused haddress hrefused trivial hword
  | deleteWhere table filters =>
      obtain rfl := List.mem_singleton.mp hr
      refine fails_bind fun _ => fails_bind fun _ => fails_bind fun _ => ?_
      exact fails_run_of_refused haddress hrefused trivial hword
  | upsert table row key =>
      refine fails_bind fun _ => fails_bind fun _ => fails_bind fun _ => fails_bind fun _ => ?_
      exact fails_put_of_refused hrefused hw
  | createTable | createTableWith | createDesigned | insertDataset | upsertDataset | columnInfo
  | columnTypes => exact nomatch hused

end

/-- An operation on an existing table that has a keyword among its names never succeeds. -/
theorem fails_of_isKeyword {g : Gateway} (haddress : g.checkAddress = .ok ()) {name : String}
    (hkeyword : Word.isKeyword name = true) {op : Operation} {table : String}
    {columns : List String} (hused : op.used? = some (table, columns)) (hname : name ∈ op.names) :
    Fails (op.action g) := by
  by_cases hkey : ∀ table row key, op = .upsert table row key → row.get? key ≠ none
  · obtain ⟨w, hw, rfl⟩ := List.mem_map.mp (Operation.names_subset_words hused hkey hname)
    have hrefused : w.refusedAt? ≠ none := by
      rw [Word.refusedAt?_of_isKeyword hkeyword]
      exact Option.some_ne_none _
    exact fails_of_refused haddress hrefused hused hw
  · push Not at hkey
    obtain ⟨table, row, key, rfl, hid⟩ := hkey
    refine fails_bind fun _ => fails_bind fun _ => fails_bind fun _ => fails_bind fun _ => ?_
    rw [put, hid]
    exact fun s => ⟨_, rfl⟩

/-! ## Tables that are made from designs -/

/-- A read whose first word is refused fails at its token in every session.  Nothing
    else can go wrong before it, as words are checked before tables and columns are
    looked up. -/
theorem misreads_get {g : Gateway} (haddress : g.checkAddress = .ok ()) {table token : String}
    {columns : List String} (htable : Dialect.sqlite.isValidName table = true)
    (hcolumns : ∀ name ∈ columns, Dialect.sqlite.isValidName name = true) {w : Word}
    {rest : List Word} (hfirst : (Operation.get table columns [] []).words = w :: rest)
    (htoken : w.refusedAt? = some token) (s : Session) :
    Misreads g (.get table columns [] []) s token := by
  -- valid names pass every check, so that the selection itself is sent
  have hget : g.get table columns [] [] = ask { table := some table, columns } := by
    rw [get, checkTable_eq_ok.mpr htable, checkColumns_eq_ok.mpr hcolumns, query_eq_ask haddress]
    rfl
  have hwords : ({ table := some table, columns } : Select).words = w :: rest := by
    rw [← hfirst, Operation.words, Operation.requests, List.flatMap_singleton]
    rfl
  have hrefused : s.database.select { table := some table, columns }
      = .error (.unexpected token) := by
    obtain ⟨_, hselect, -⟩ := s.database.checksFirst_select { table := some table, columns }
    rw [hselect, hwords, Word.check, List.findSome?_cons, htoken]
    rfl
  show ((g.get table columns [] []).run s).1 = _
  rw [hget, run_ask (Select.build_eq_ok rfl htable), hrefused]

/-- So does a read of a single column that is no name there, wherever the column is from. -/
theorem misreads_get_column {g : Gateway} (haddress : g.checkAddress = .ok ())
    {table column : String} (htable : Dialect.sqlite.isValidName table = true)
    (hcolumn : Word.isReadable column = false) :
    ∃ token, ∀ s, Misreads g (.get table [column] [] []) s token := by
  have hcolumns : ∀ name ∈ [column], Dialect.sqlite.isValidName name = true :=
    List.forall_mem_singleton.mpr (isValidName_of_not_isReadable hcolumn)
  have hrefused : (⟨column, .operand "FROM"⟩ : Word).refusedAt? ≠ none := by
    rw [Ne, Word.refusedAt?_operand, hcolumn]
    exact Bool.false_ne_true
  obtain ⟨token, htoken⟩ := Option.ne_none_iff_exists'.mp hrefused
  exact ⟨token, misreads_get haddress htable hcolumns rfl htoken⟩

/-- A table is made only over a connection that can be opened. -/
theorem checkAddress_of_createDesigned {g : Gateway} {t : TableDesign} {s s' : Session}
    (h : Yields (g.createDesigned t) s () s') : g.checkAddress = .ok () := by
  obtain ⟨_, _, -, hrun⟩ := yields_bind.mp h
  obtain ⟨_, hrun⟩ := yields_discard.mp hrun
  obtain ⟨_, _, -, hrun⟩ := yields_bind.mp hrun
  obtain ⟨_, _, haddress, -⟩ := yields_bind.mp hrun
  exact (yields_require.mp haddress).1

/-- **WHICH NAMES OF A DESIGN ARE MISREAD.**  Once its table is made and used by its own names:

    * a text is refused at a token only because of a word that is no name at its place, and then
      at the token of such a word;
    * an operation that has such a word never succeeds;
    * a name that is a keyword, of the table or of a column, is misread by some operation in
      every session, and no operation with this name ever succeeds;
    * a column that begins an expression of its own is misread by some operation in every
      session. -/
theorem keywords_are_misread (g : Gateway) (t : TableDesign) (s s₁ : Session)
    (h : Yields (g.createDesigned t) s () s₁) :
    (∀ op : Operation, op.Uses t → ∀ (s' : Session) (token : String), Misreads g op s' token →
        ∃ w ∈ op.words, w.refusedAt? = some token)
      ∧ (∀ op : Operation, op.Uses t → (∃ w ∈ op.words, w.refusedAt? ≠ none) →
        Fails (op.action g))
      ∧ (∀ name ∈ t.tableName :: t.columns.map ColumnDesign.name, Word.isKeyword name = true →
        (∃ op : Operation, op.Uses t ∧ ∀ s' : Session, Misreads g op s' name)
          ∧ ∀ op : Operation, op.Uses t → name ∈ op.names → Fails (op.action g))
      ∧ ∀ column ∈ t.columns.map ColumnDesign.name, Word.isReadable column = false →
        ∃ (op : Operation) (token : String), op.Uses t ∧ column ∈ op.names
          ∧ ∀ s' : Session, Misreads g op s' token := by
  have haddress := checkAddress_of_createDesigned h
  have hvalid := (createDesigned_yields h).1
  have huses {column : String} (hcolumn : column ∈ t.columns.map ColumnDesign.name) :
      (Operation.get t.tableName [column] [] []).Uses t :=
    ⟨[column], rfl, List.cons_subset.mpr ⟨hcolumn, List.nil_subset _⟩⟩
  -- the four parts in the order of the statement
  refine ⟨?_, ?_, fun name hname hkeyword => ⟨?_, ?_⟩, fun column hcolumn hread => ?_⟩
  · rintro op ⟨columns, hused, -⟩ s' token hmisread
    exact exists_refused_of_misreads haddress hused hmisread
  · rintro op ⟨columns, hused, -⟩ ⟨w, hw, hrefused⟩
    exact fails_of_refused haddress hrefused hused hw
  · -- a table is misread in any selection, a column where it is asked for
    rcases List.mem_cons.mp hname with rfl | hcolumn
    · refine ⟨.get t.tableName [] [] [], ⟨[], rfl, List.nil_subset _⟩, ?_⟩
      exact misreads_get haddress hvalid.table (List.forall_mem_nil _) rfl
        (Word.refusedAt?_of_isKeyword hkeyword)
    · have hread : Word.isReadable name = false := by rw [Word.isReadable, hkeyword]; rfl
      refine ⟨.get t.tableName [name] [] [], huses hcolumn, ?_⟩
      exact misreads_get haddress hvalid.table
        (List.forall_mem_singleton.mpr (isValidName_of_not_isReadable hread)) rfl
        (Word.refusedAt?_of_isKeyword hkeyword)
  · rintro op ⟨columns, hused, -⟩ hop
    exact fails_of_isKeyword haddress hkeyword hused hop
  · obtain ⟨token, hmisreads⟩ := misreads_get_column haddress hvalid.table hread
    exact ⟨_, token, huses hcolumn, List.mem_cons_of_mem _ (List.mem_cons_self ..), hmisreads⟩

/-- A table of limits, each known by a number. -/
def limits : TableDesign where
  tableName := "Limit"
  columns := [{ name := "Id", dataType := .integer, isNullable := false, isPrimaryKey := true }]

/-- The session after the table of limits was made in an empty one. -/
def limitsSession : Session := ((Gateway.createDesigned ⟨.ok "memory"⟩ limits).run {}).2

/-- The table of limits is made, and can then not be read, filled or dropped.  The
    statement that makes it quotes the name, and none of the others does. -/
theorem keywords_are_misread_limits :
    Yields (Gateway.createDesigned ⟨.ok "memory"⟩ limits) {} () limitsSession
      ∧ (∃ op : Operation, op.Uses limits ∧ Misreads ⟨.ok "memory"⟩ op limitsSession "Limit")
      ∧ Fails (Gateway.getAll ⟨.ok "memory"⟩ "Limit")
      ∧ (∀ row : Row, row.names ⊆ ["Id"] → Fails (Gateway.add ⟨.ok "memory"⟩ "Limit" row))
      ∧ Fails (Gateway.dropTable ⟨.ok "memory"⟩ "Limit") := by
  have hmade : Yields (Gateway.createDesigned ⟨.ok "memory"⟩ limits) {} () limitsSession :=
    Prod.ext (by decide +kernel) rfl
  obtain ⟨-, -, hnames, -⟩ := keywords_are_misread _ _ _ _ hmade
  obtain ⟨⟨op, huses, hmisread⟩, hfails⟩ :=
    hnames "Limit" (List.mem_cons_self ..) (by decide +kernel)
  have hword {names : List String} : "Limit" ∈ "Limit" :: names := List.mem_cons_self ..
  refine ⟨hmade, ⟨op, huses, hmisread _⟩, ?_, fun row hrow => ?_, ?_⟩
  · exact hfails (.getAll "Limit") ⟨[], rfl, List.nil_subset _⟩ hword
  · exact hfails (.add "Limit" row) ⟨row.names, rfl, hrow⟩ hword
  · exact hfails (.dropTable "Limit") ⟨[], rfl, List.nil_subset _⟩ hword

end Gateway

end Gridbase
