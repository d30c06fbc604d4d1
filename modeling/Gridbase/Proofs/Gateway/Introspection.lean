import Gridbase.Gateway.Bulk
import Gridbase.Proofs.Gateway.Session
import Gridbase.Proofs.Schema.RoundTrip
import Gridbase.Proofs.Store.Creation

/-! # Introspection of designed tables

    A table that was made from a design is described in two ways, by the catalog
    and by the text of its statement.

    * The text gives back the design (`readColumns_columnListText`).
    * The catalog gives the same, but it calls a key generated whenever the
      STATEMENT mentions a generated key, be it in a name.

    The two agree on all designs but those whose names mention a generated key
    while their key is not generated (`TableDesign.MistakesKey`). -/

namespace Gridbase

open Gridbase.Text Gridbase.Schema Gridbase.Catalog Gridbase.Session

/-! ## What a statement mentions -/

/-- The text mentions a generated key, anywhere and in letters of either case. -/
def mentions (cs : List Char) : Bool := occursIn "AUTOINCREMENT".toList (upper cs)

/-- A character that the mention does not have. -/
def Silent (c : Char) : Prop := c.toUpper ∉ "AUTOINCREMENT".toList

instance (c : Char) : Decidable (Silent c) := inferInstanceAs (Decidable (¬ _))

theorem mentionsGenerated_eq (s : String) : mentionsGenerated s = mentions s.toList := rfl

/-- A silent character separates mentions. -/
theorem mentions_append_cons {c : Char} (h : Silent c) (a b : List Char) :
    mentions (a ++ c :: b) = (mentions a || mentions b) := by
  rw [mentions, upper_append, upper_cons, occursIn_append_cons h]
  rfl

theorem mentions_nil : mentions [] = false := by decide

theorem mentions_cons {c : Char} (h : Silent c) (cs : List Char) :
    mentions (c :: cs) = mentions cs := by
  rw [← List.nil_append (c :: cs), mentions_append_cons h, mentions_nil, Bool.false_or]

theorem mentions_concat {c : Char} (h : Silent c) (cs : List Char) :
    mentions (cs ++ [c]) = mentions cs := by
  rw [mentions_append_cons h, mentions_nil, Bool.or_false]

/-- Words joined by commas mention what one of them mentions. -/
theorem mentions_intercalate (words : List (List Char)) :
    mentions ((',' :: ['\n']).intercalate words) = words.any mentions := by
  induction words with
  | nil => exact mentions_nil
  | cons w words ih =>
      cases words with
      | nil => rw [List.intercalate_singleton, List.any_cons, List.any_nil, Bool.or_false]
      | cons v words =>
          have htext : (',' :: ['\n']).intercalate (w :: v :: words)
              = w ++ ',' :: '\n' :: (',' :: ['\n']).intercalate (v :: words) := by
            simp [List.intercalate_cons_cons]
          rw [htext, mentions_append_cons (by decide), mentions_cons (by decide), ih]
          rfl

namespace ColumnDesign

/-- A definition mentions a generated key in its name, or because it is one. -/
theorem mentions_definition {c : ColumnDesign} (h : Dialect.sqlite.isValidName c.name = true) :
    mentions (c.definition .sqlite).toList
      = (mentions c.name.toList || c.isAutoIncrementing) := by
  obtain ⟨-, -, hgen⟩ := occursIn_flagText .sqlite c
  rw [toList_definition h, mentions_cons (by decide), mentions_append_cons (by decide), mentions,
    mentions, occursIn_rest .sqlite c (by simp [flagNeedles]), hgen, markTrails]
  exact congrArg (_ || ·) (Bool.and_true _)

end ColumnDesign

namespace TableDesign

/-- The table or one of its columns has a name that mentions a generated key.  Such
    names are valid. -/
def namesMention (t : TableDesign) : Bool :=
  mentionsGenerated t.tableName || t.columns.any fun c => mentionsGenerated c.name

/-- The padded definitions mention a generated key in a name, or because one is. -/
theorem any_mentions_definition {columns : List ColumnDesign}
    (h : ∀ c ∈ columns, Dialect.sqlite.isValidName c.name = true) :
    ((columns.map fun c => (c.definition .sqlite).toList).map ("    ".toList ++ ·)).any mentions
      = (columns.any (fun c => mentionsGenerated c.name)
        || columns.any ColumnDesign.isAutoIncrementing) := by
  induction columns with
  | nil => rfl
  | cons c columns ih =>
      -- the blanks that pad a definition are silent one by one
      have hpad : mentions ("    ".toList ++ (c.definition .sqlite).toList)
          = mentions (c.definition .sqlite).toList := by
        show mentions ([' ', ' ', ' ', ' '] ++ _) = _
        simp only [List.cons_append, List.nil_append, mentions_cons (show Silent ' ' by decide)]
      rw [List.map_cons, List.map_cons, List.any_cons, hpad,
        ColumnDesign.mentions_definition (h c (List.mem_cons_self ..)),
        ih fun e he => h e (List.mem_cons_of_mem _ he), List.any_cons, List.any_cons,
        mentionsGenerated_eq, Bool.or_assoc, Bool.or_assoc, Bool.or_left_comm _ _ (List.any ..)]

/-- **MENTIONS OF A STATEMENT**: the statement of a table mentions a generated key
    in one of the names, or because a column is one. -/
theorem mentionsGenerated_sql {t : TableDesign} (h : Valid .sqlite t) :
    mentionsGenerated ("CREATE TABLE " ++ Dialect.sqlite.quote t.tableName
        ++ t.columnListText .sqlite)
      = (t.namesMention || t.columns.any ColumnDesign.isAutoIncrementing) := by
  -- the mark is sought piece by piece: no piece can share it with its neighbour
  have hbody : mentions (t.body .sqlite)
      = (t.columns.any (fun c => mentionsGenerated c.name)
        || t.columns.any ColumnDesign.isAutoIncrementing) := by
    rw [body, mentions_concat (by decide), List.singleton_append, mentions_cons (by decide),
      mentions_intercalate, any_mentions_definition h.names]
  have htext : ("CREATE TABLE " ++ Dialect.sqlite.quote t.tableName
        ++ t.columnListText .sqlite).toList
      = "CREATE TABLE ".toList ++ '"' ::
        (t.tableName.toList ++ '"' :: ' ' :: '(' :: (t.body .sqlite ++ [')'])) := by
    rw [String.toList_append, String.toList_append, Dialect.toList_quote h.table,
      toList_columnListText]
    simp [Dialect.openingMark, Dialect.closingMark]
  rw [mentionsGenerated_eq, htext, mentions_append_cons (by decide),
    mentions_append_cons (by decide), mentions_cons (by decide), mentions_cons (by decide),
    mentions_concat (by decide), hbody, namesMention, mentionsGenerated_eq, Bool.or_assoc]
  exact congrArg (· || _) (by decide +kernel : mentions "CREATE TABLE ".toList = false)

end TableDesign

/-! ## What the catalog takes for generated -/

namespace TableDesign

/-- The catalog takes the column for generated: it is the key, and the text of the table
    has the mention somewhere. -/
def seemsGenerated (t : TableDesign) (c : ColumnDesign) : Bool :=
  isKeyColumn .sqlite c && (t.namesMention || t.columns.any ColumnDesign.isAutoIncrementing)

/-- A name mentions a generated key, and the key is not generated.  Columns besides the
    key are never mistaken. -/
def MistakesKey (t : TableDesign) : Prop :=
  t.namesMention = true ∧ ∃ c ∈ t.columns, c.isPrimaryKey = true ∧ c.isAutoIncrementing = false

/-- A generated column is a key. -/
theorem isKeyColumn_of_generated {c : ColumnDesign} (h : c.isAutoIncrementing = true) :
    isKeyColumn .sqlite c = true := by
  rw [isKeyColumn, h]
  exact Bool.or_true _

/-- A key that is not generated is the only candidate: no other column is
    generated. -/
theorem Valid.none_generated {t : TableDesign} (h : Valid .sqlite t) {c : ColumnDesign}
    (hc : c ∈ t.columns) (hkey : c.isPrimaryKey = true) (hgen : c.isAutoIncrementing = false) :
    ∀ e ∈ t.columns, e.isAutoIncrementing = false := by
  intro e he
  rw [Bool.eq_false_iff]
  intro hauto
  have hkeyed : isKeyColumn .sqlite c = true := by
    rw [isKeyColumn, hkey]
    rfl
  rw [h.key_unique he hc (isKeyColumn_of_generated hauto) hkeyed, hgen] at hauto
  exact Bool.false_ne_true hauto

/-- A mistaken key seems generated. -/
theorem MistakesKey.exists_seemsGenerated {t : TableDesign} (h : t.MistakesKey) :
    ∃ c ∈ t.columns, t.seemsGenerated c = true ∧ c.isPrimaryKey = true
      ∧ c.isAutoIncrementing = false := by
  obtain ⟨hmention, c, hc, hkey, hgen⟩ := h
  refine ⟨c, hc, ?_, hkey, hgen⟩
  rw [seemsGenerated, isKeyColumn, hkey, hmention]
  rfl

/-- **THE CATALOG IS RIGHT** about every column unless it mistakes the key.  Nothing but
    the names can mislead it, as the rest of the text is written by the design. -/
theorem seemsGenerated_eq_iff {t : TableDesign} (h : Valid .sqlite t) :
    (∀ c ∈ t.columns, t.seemsGenerated c = c.isAutoIncrementing) ↔ ¬ t.MistakesKey := by
  constructor
  · intro hright hmistake
    obtain ⟨c, hc, hseems, -, hgen⟩ := hmistake.exists_seemsGenerated
    rw [hright c hc, hgen] at hseems
    exact nomatch hseems
  · intro hmistake c hc
    cases hgen : c.isAutoIncrementing with
    | true =>
        -- the column itself is in the statement with its mark
        have hany : t.columns.any ColumnDesign.isAutoIncrementing = true :=
          List.any_eq_true.mpr ⟨c, hc, hgen⟩
        rw [seemsGenerated, isKeyColumn_of_generated hgen, hany, Bool.or_true]
        rfl
    | false =>
        have hplain : isKeyColumn .sqlite c = c.isPrimaryKey := by
          rw [isKeyColumn, hgen]
          exact Bool.or_false _
        rw [seemsGenerated, hplain]
        cases hkey : c.isPrimaryKey with
        | false => rfl
        | true =>
            -- neither a column nor a name can mislead the catalog here
            have hnone : t.columns.any ColumnDesign.isAutoIncrementing = false :=
              List.any_eq_false.mpr fun e he => by
                rw [h.none_generated hc hkey hgen e he]
                exact Bool.false_ne_true
            have hmention : t.namesMention = false := by
              rw [Bool.eq_false_iff]
              exact fun hm => hmistake ⟨hm, c, hc, hkey, hgen⟩
            rw [hnone, hmention]
            rfl

/-- Where the catalog mistakes the key, it takes columns for generated that are
    not. -/
theorem filter_seemsGenerated_iff {t : TableDesign} (h : Valid .sqlite t) :
    (t.columns.filter t.seemsGenerated).map ColumnDesign.name
        = (t.columns.filter ColumnDesign.isAutoIncrementing).map ColumnDesign.name
      ↔ ¬ t.MistakesKey := by
  constructor
  · intro hnames hmistake
    obtain ⟨c, hc, hseems, hkey, hgen⟩ := hmistake.exists_seemsGenerated
    have hnone : t.columns.filter ColumnDesign.isAutoIncrementing = [] := by
      refine List.filter_eq_nil_iff.mpr fun e he => ?_
      rw [h.none_generated hc hkey hgen e he]
      exact Bool.false_ne_true
    rw [hnone, List.map_nil, List.map_eq_nil_iff] at hnames
    exact List.filter_eq_nil_iff.mp hnames c hc hseems
  · intro hmistake
    rw [List.filter_congr ((seemsGenerated_eq_iff h).mpr hmistake)]

end TableDesign

/-! ## Tables that were made from designs -/

/-- The column that is stored for a designed one. -/
def ColumnDesign.stored (c : ColumnDesign) : StoredColumn where
  name := c.name
  declaredType := Dialect.sqlite.columnType c
  notNull := !c.admitsNull
  primaryKey := TableDesign.isKeyColumn .sqlite c

/-- A designed column is stored as declared. -/
theorem ColumnDeclaration.Stores.eq_stored {c : ColumnDesign} {stored : StoredColumn}
    (h : Stores (ofDesign c) stored) : stored = c.stored := by
  -- a designed column has no default, so that every field of the stored one is known
  obtain ⟨name, declaredType, notNull, primaryKey, preset⟩ := stored
  obtain ⟨rfl, rfl, rfl, rfl, hpreset⟩ := h
  cases hpreset
  rfl

/-- **A TABLE MADE FROM A DESIGN** is reached by its name, and holds its statement
    and its columns. -/
theorem Gateway.createDesigned_yields {g : Gateway} {t : TableDesign} {s s' : Session}
    (h : Yields (g.createDesigned t) s () s') :
    TableDesign.Valid .sqlite t ∧ ∃ table, s'.database.table? t.tableName = some table
      ∧ table.sql = "CREATE TABLE " ++ Dialect.sqlite.quote t.tableName
          ++ t.columnListText .sqlite
      ∧ table.columns = t.columns.map ColumnDesign.stored := by
  -- the design is validated before anything is made
  obtain ⟨_, _, hvalidate, hrun⟩ := yields_bind.mp h
  obtain ⟨hvalid, rfl⟩ := yields_require.mp hvalidate
  -- the query is completed and the connection is checked; neither changes the session
  obtain ⟨_, hrun⟩ := yields_discard.mp hrun
  obtain ⟨q, _, hprepared, hrun⟩ := yields_bind.mp hrun
  obtain ⟨-, rfl⟩ := yields_prepared.mp hprepared
  obtain ⟨_, _, haddress, hexecute⟩ := yields_bind.mp hrun
  obtain ⟨-, rfl⟩ := yields_require.mp haddress
  obtain ⟨database, hdatabase, rfl⟩ := yields_execute.mp hexecute
  refine ⟨TableDesign.validate_eq_ok_iff.mp hvalid, ?_⟩
  have hcreate : s.database.createDesigned t = .ok database := by
    rw [Database.execute] at hdatabase
    cases hcreated : s.database.createDesigned t with
    | error fault =>
        rw [hcreated] at hdatabase
        exact nomatch hdatabase
    | ok made =>
        rw [hcreated] at hdatabase
        cases hdatabase
        rfl
  obtain ⟨table, htable, -, hwritten, hdefinition, hcolumns⟩ := Database.create_eq_ok hcreate
  refine ⟨table, htable, ?_, ?_⟩
  · rw [Table.sql, hwritten, hdefinition]
  · rw [List.forall₂_map_left_iff] at hcolumns
    have heq : List.Forall₂ (fun c stored => ColumnDesign.stored c = stored) t.columns
        table.columns := hcolumns.imp fun _ _ hstores => hstores.eq_stored.symm
    rw [← List.forall₂_map_left_iff, List.forall₂_eq_eq_eq] at heq
    exact heq.symm

/-- What the catalog says of a designed column: the same as the text, but for the
    mark of a generated one. -/
def TableDesign.inCatalog (t : TableDesign) (c : ColumnDesign) : ColumnInfo :=
  { c.readBack .sqlite with isAutoIncrementing := t.seemsGenerated c }

/-- A stored column is described as the catalog says. -/
theorem TableDesign.describe_stored (t : TableDesign) (c : ColumnDesign) :
    describe (t.namesMention || t.columns.any ColumnDesign.isAutoIncrementing) c.stored
      = t.inCatalog c := by
  have hnull : (!(!c.admitsNull) && !isKeyColumn .sqlite c) = c.admitsNull := by
    rw [Bool.not_not, ColumnDesign.admitsNull_and_not_key]
  show ({ columnOfDeclared c.name.toList (Dialect.sqlite.columnType c).toList with
    isPrimaryKey := _, isNullable := _, isAutoIncrementing := _ } : ColumnInfo) = _
  rw [ColumnDesign.columnOfDeclared_typeForm (ColumnDesign.typeForm .sqlite c)]
  show ({ c.readBack .sqlite with
    isNullable := !(!c.admitsNull) && !isKeyColumn .sqlite c
    isAutoIncrementing := t.seemsGenerated c } : ColumnInfo) = _
  rw [hnull]
  rfl

/-- **BOTH DESCRIPTIONS** of a table that was made from a design.  The catalog has the
    columns themselves and looks for one word in the stored text; the other description
    cuts all columns out of that text. -/
theorem Gateway.columns_createDesigned {g : Gateway} {t : TableDesign} {s s' : Session}
    (h : Yields (g.createDesigned t) s () s') :
    TableDesign.Valid .sqlite t
      ∧ Catalog.columns s'.database t.tableName .catalog = .ok (t.columns.map t.inCatalog)
      ∧ Catalog.columns s'.database t.tableName .schemaText
        = .ok (t.columns.map (ColumnDesign.readBack .sqlite)) := by
  obtain ⟨hvalid, table, htable, hsql, hcolumns⟩ := createDesigned_yields h
  have hreach : s'.database.reachable? t.tableName = some table := by
    rw [Database.reachable?, htable]
  -- both ways start from the one table that was stored
  refine ⟨hvalid, ?_, ?_⟩
  · rw [Catalog.columns, hreach]
    show Except.ok (table.columns.map (describe (mentionsGenerated table.sql))) = _
    rw [hcolumns, hsql, TableDesign.mentionsGenerated_sql hvalid, List.map_map]
    exact congrArg Except.ok (List.map_congr_left fun c _ => t.describe_stored c)
  · have hread : readColumns (table.sql ++ "")
        = t.columns.map (ColumnDesign.readBack .sqlite) := by
      rw [hsql]
      exact TableDesign.readColumns_statement hvalid (by simp)
    rw [String.append_empty] at hread
    rw [Catalog.columns, hreach]
    exact congrArg Except.ok hread

/-- **THE INTROSPECTORS AGREE** on a table made from a design exactly if the design
    does not mistake its key; exactly then the catalog takes the designed columns,
    and no others, for generated, and these are the columns that a bulk insertion
    leaves out. -/
theorem Gateway.introspection_createDesigned (g : Gateway) (t : TableDesign) (s s' : Session)
    (h : Yields (g.createDesigned t) s () s') :
    ∃ byCatalog byText,
      Catalog.columns s'.database t.tableName .catalog = .ok byCatalog
        ∧ Catalog.columns s'.database t.tableName .schemaText = .ok byText
        ∧ Catalog.liveColumns s'.database t.tableName = .ok byCatalog
        ∧ (byCatalog = byText ↔ ¬ t.MistakesKey)
        ∧ (byCatalog.map ColumnInfo.isAutoIncrementing
            = t.columns.map ColumnDesign.isAutoIncrementing ↔ ¬ t.MistakesKey)
        ∧ (generatedNames byCatalog
            = (t.columns.filter ColumnDesign.isAutoIncrementing).map ColumnDesign.name
              ↔ ¬ t.MistakesKey) := by
  obtain ⟨hvalid, hcatalog, htext⟩ := columns_createDesigned h
  have hmark : ∀ c : ColumnDesign, (c.readBack .sqlite).isAutoIncrementing
      = c.isAutoIncrementing := fun c => Bool.and_true _
  refine ⟨_, _, hcatalog, htext, ?_, ?_, ?_, ?_⟩
  · rw [Catalog.liveColumns, hcatalog]
  · rw [← TableDesign.seemsGenerated_eq_iff hvalid, List.map_inj_left]
    constructor
    · intro hsame c hc
      exact (congrArg ColumnInfo.isAutoIncrementing (hsame c hc)).trans (hmark c)
    · intro hright c hc
      rw [TableDesign.inCatalog, hright c hc, ← hmark c]
  · rw [← TableDesign.seemsGenerated_eq_iff hvalid, List.map_map, List.map_inj_left]
    exact Iff.rfl
  · rw [← TableDesign.filter_seemsGenerated_iff hvalid, generatedNames, List.filter_map,
      List.map_map]
    exact Iff.rfl

/-- A log whose own name mentions a generated key, while its key is an ordinary
    one. -/
def autoIncrementLog : TableDesign where
  tableName := "AutoIncrementLog"
  columns := [
    { name := "Id", dataType := .integer, isNullable := false, isPrimaryKey := true },
    { name := "Note", dataType := .string }]

/-- The session after the log was made in an empty one. -/
def autoIncrementLogSession : Session :=
  ((Gateway.createDesigned ⟨.ok "memory"⟩ autoIncrementLog).run {}).2

/-- The catalog takes the key of the log for generated, and the text does not.  The name
    of the table has the word in it, and the key is an ordinary one. -/
theorem introspection_autoIncrementLog :
    Yields (Gateway.createDesigned ⟨.ok "memory"⟩ autoIncrementLog) {} ()
        autoIncrementLogSession
      ∧ ∃ byCatalog byText,
        Catalog.columns autoIncrementLogSession.database "AutoIncrementLog" .catalog
            = .ok byCatalog
          ∧ Catalog.columns autoIncrementLogSession.database "AutoIncrementLog" .schemaText
            = .ok byText
          ∧ byCatalog ≠ byText ∧ Gateway.generatedNames byCatalog ≠ [] := by
  have hmade : Yields (Gateway.createDesigned ⟨.ok "memory"⟩ autoIncrementLog) {} ()
      autoIncrementLogSession :=
    Prod.ext (by decide +kernel) rfl
  have hmistake : autoIncrementLog.MistakesKey :=
    ⟨by decide +kernel, _, List.mem_cons_self .., rfl, rfl⟩
  obtain ⟨byCatalog, byText, hcatalog, htext, -, hagree, -, hnames⟩ :=
    Gateway.introspection_createDesigned _ autoIncrementLog _ _ hmade
  refine ⟨hmade, byCatalog, byText, hcatalog, htext, ?_, ?_⟩
  · exact fun hsame => hagree.mp hsame hmistake
  · intro hnil
    exact hnames.mp (hnil.trans rfl) hmistake

end Gridbase
