import Gridbase.Proofs.Schema.TypeForm
import Gridbase.Proofs.Schema.Validity
import Gridbase.Schema.Ddl
import Mathlib.Data.List.Forall2

/-! # Compiled designs, read back

    The statement that `TableDesign.compile` writes is read by `readColumns` as
    the columns of the design.

    * The flags found in a definition are those that were written.
    * Every definition is level and solid, so the body falls into its
      definitions, one for each column (`readColumns_columnListText`).
    * What comes back for a column is `readBack`, which says of it all that the
      design says (`ReadsBack`). -/

namespace Gridbase

open Gridbase.Text Gridbase.Schema

namespace ColumnDesign

/-! ## Definitions -/

/-- The words after name and type in one text, with blanks between them. -/
def flagText (d : Dialect) (c : ColumnDesign) : String := joinWith " " (c.constraintWords d)

/-- A definition is the quoted name, the type and the flags. -/
theorem toList_definition {d : Dialect} {c : ColumnDesign} (h : d.isValidName c.name = true) :
    (c.definition d).toList
      = d.openingMark :: (c.name.toList ++ d.closingMark :: ' ' ::
        ((d.columnType c).toList ++ ' ' :: (c.flagText d).toList)) := by
  have hwords : c.constraintWords d ≠ [] := by simp [constraintWords]
  rw [definition, joinWith_cons " " _ (by simp), joinWith_cons " " _ hwords]
  simp [Dialect.toList_quote h, flagText]

/-- A key holds no NULL. -/
theorem admitsNull_and_not_key (d : Dialect) (c : ColumnDesign) :
    (c.admitsNull && !TableDesign.isKeyColumn d c) = c.admitsNull := by
  rw [admitsNull, TableDesign.isKeyColumn]
  cases c.isNullable <;> cases c.isPrimaryKey <;> cases c.isAutoIncrementing <;>
    cases d.marksAfterKey <;> rfl

/-- A design with given flags; the flags are all that its words depend on. -/
def flagged (nullable key auto : Bool) : ColumnDesign where
  name := ""
  dataType := .integer
  isNullable := nullable
  isPrimaryKey := key
  isAutoIncrementing := auto

/-- **THE FLAGS THAT ARE FOUND** are those that were written.  No flag is made up by two
    words that stand side by side. -/
theorem occursIn_flagText (d : Dialect) (c : ColumnDesign) :
    occursIn "PRIMARY KEY".toList (' ' :: upper (c.flagText d).toList)
        = TableDesign.isKeyColumn d c
      ∧ occursIn "NOT NULL".toList (' ' :: upper (c.flagText d).toList) = (!c.admitsNull)
      ∧ occursIn "AUTOINCREMENT".toList (' ' :: upper (c.flagText d).toList)
        = c.markTrails d := by
  -- the words depend on the three flags and the dialect alone
  have hflags : ∀ nullable key auto : Bool,
      occursIn "PRIMARY KEY".toList (' ' :: upper ((flagged nullable key auto).flagText d).toList)
          = TableDesign.isKeyColumn d (flagged nullable key auto)
        ∧ occursIn "NOT NULL".toList (' ' :: upper ((flagged nullable key auto).flagText d).toList)
          = (!(flagged nullable key auto).admitsNull)
        ∧ occursIn "AUTOINCREMENT".toList
            (' ' :: upper ((flagged nullable key auto).flagText d).toList)
          = (flagged nullable key auto).markTrails d := by
    cases d <;> decide +kernel
  exact hflags c.isNullable c.isPrimaryKey c.isAutoIncrementing

/-- The flags begin with a letter, and end with one. -/
theorem flagText_ends (d : Dialect) (c : ColumnDesign) :
    startsWith ['('] (trimStart (c.flagText d).toList) = false
      ∧ ∃ init e, (c.flagText d).toList = init ++ [e] ∧ isBlank e = false := by
  have hflags : ∀ nullable key auto : Bool,
      startsWith ['('] (trimStart ((flagged nullable key auto).flagText d).toList) = false
        ∧ ((flagged nullable key auto).flagText d).toList.getLast?.any
          (fun e => !isBlank e) = true := by
    cases d <;> decide +kernel
  obtain ⟨hstart, hlast⟩ := hflags c.isNullable c.isPrimaryKey c.isAutoIncrementing
  obtain ⟨e, he, hblank⟩ := (Option.any_eq_true ..).mp hlast
  obtain ⟨init, hinit⟩ := List.getLast?_eq_some_iff.mp he
  exact ⟨hstart, init, e, hinit, by simpa using hblank⟩

/-- The words of the flags are level.  They are letters and blanks, and one dialect puts
    a pair of parentheses among them. -/
theorem level_flagText (d : Dialect) (c : ColumnDesign) : Level (c.flagText d).toList := by
  have hmark : Level d.generatedMark.toList := by
    -- the mark of SQL Server has a comma, inside its parentheses
    have hargs : "IDENTITY(1,1)".toList = withArgs "IDENTITY".toList "1,1".toList := by
      decide +kernel
    cases d with
    | sqlite => exact level_of_plain (by decide +kernel)
    | postgres => exact level_of_plain (by decide +kernel)
    | sqlServer =>
        show Level "IDENTITY(1,1)".toList
        rw [hargs]
        exact level_withArgs (by decide) (by decide)
  rw [flagText, toList_joinWith]
  refine level_intercalate (level_of_plain (by decide)) ?_
  intro cs hcs
  obtain ⟨w, hw, rfl⟩ := List.mem_map.mp hcs
  simp only [constraintWords, List.mem_append, List.mem_ite_nil_right, List.mem_singleton] at hw
  rcases hw with ((⟨-, rfl⟩ | rfl) | ⟨-, rfl⟩) | ⟨-, rfl⟩
  · exact hmark
  · split <;> exact level_of_plain (by decide)
  · exact level_of_plain (by decide)
  · exact hmark

/-- A definition is level and solid.  Name, type and flags are level one by one, and so
    is what they make together. -/
theorem definition_level_solid {d : Dialect} {c : ColumnDesign}
    (h : d.isValidName c.name = true) :
    Level (c.definition d).toList ∧ Solid (c.definition d).toList := by
  -- the quoted name holds no mark that counts
  have hname : ∀ x ∈ d.openingMark :: (c.name.toList ++ [d.closingMark, ' ']), Plain x := by
    intro x hx
    simp only [List.mem_cons, List.mem_append, List.not_mem_nil, or_false] at hx
    rcases hx with rfl | hx | rfl | rfl
    · cases d <;> decide
    · exact plain_of_class (by decide) (Identifier.isBody_of_mem h hx)
    · cases d <;> decide
    · decide
  have htext : (c.definition d).toList
      = (d.openingMark :: (c.name.toList ++ [d.closingMark, ' ']))
        ++ ((d.columnType c).toList ++ ([' '] ++ (c.flagText d).toList)) := by
    rw [toList_definition h]
    simp
  obtain ⟨-, init, e, hlast, hblank⟩ := flagText_ends d c
  constructor
  · rw [htext]
    exact level_append (level_of_plain hname) (level_append (typeForm d c).level
      (level_append (level_of_plain (by decide)) (level_flagText d c)))
  · refine ⟨⟨d.openingMark, _, toList_definition h, by cases d <;> decide⟩, ?_⟩
    refine ⟨(d.openingMark :: (c.name.toList ++ [d.closingMark, ' ']))
      ++ ((d.columnType c).toList ++ ([' '] ++ init)), e, ?_, hblank⟩
    rw [htext, hlast]
    simp

/-! ## Pieces -/

/-- The column that is read from a definition: the flags are those that were written,
    and the rest is what the declared type says. -/
def readBack (d : Dialect) (c : ColumnDesign) : ColumnInfo :=
  { c.typeInfo (d.columnType c).toList with
    isPrimaryKey := TableDesign.isKeyColumn d c
    isNullable := c.admitsNull
    isAutoIncrementing := c.markTrails d }

/-- A quoted name ends at its closing mark. -/
theorem splitName_definition {d : Dialect} {c : ColumnDesign} (h : d.isValidName c.name = true) :
    splitName (c.definition d).toList
      = (c.name.toList, ' ' :: ((d.columnType c).toList ++ ' ' :: (c.flagText d).toList)) := by
  have hmark : Identifier.isBody d.closingMark = false := by cases d <;> rfl
  have hne : ∀ x ∈ c.name.toList, (x != d.closingMark) = true := by
    intro x hx
    simpa using fun hxm : x = d.closingMark => Identifier.not_mem_of_isValid h hmark (hxm ▸ hx)
  have hclosing : closingMark? d.openingMark = some d.closingMark := by cases d <;> rfl
  rw [toList_definition h]
  dsimp only [splitName]
  rw [hclosing]
  dsimp only
  rw [List.dropWhile_append_of_pos hne, List.dropWhile_cons_of_neg (by simp)]
  dsimp only
  rw [List.takeWhile_append_of_pos hne, List.takeWhile_cons_of_neg (by simp), List.append_nil]

/-- The flags of a definition are looked for after its name. -/
theorem occursIn_rest (d : Dialect) (c : ColumnDesign) {needle : List Char}
    (h : needle ∈ flagNeedles) :
    occursIn needle (upper (' ' :: ((d.columnType c).toList ++ ' ' :: (c.flagText d).toList)))
      = occursIn needle (' ' :: upper (c.flagText d).toList) := by
  have hblank : ∀ cs, occursIn needle (' ' :: cs) = occursIn needle cs := by
    intro cs
    simp only [flagNeedles, List.mem_cons, List.not_mem_nil, or_false] at h
    rcases h with rfl | rfl | rfl <;> rfl
  rw [upper_cons, upper_append, upper_cons]
  show occursIn needle (' ' :: (upper (d.columnType c).toList ++ ' ' :: _)) = _
  rw [hblank, (typeForm d c).quiet needle h]

/-- **A DEFINITION IS READ BACK** as its column.  Name, type and flags are found one
    after the other, and each by its own law. -/
theorem columnOfPiece_definition {d : Dialect} {c : ColumnDesign}
    (h : d.isValidName c.name = true) :
    columnOfPiece (c.definition d).toList = c.readBack d := by
  obtain ⟨hkey, hnull, hgen⟩ := occursIn_flagText d c
  obtain ⟨hstart, -⟩ := flagText_ends d c
  have hform := typeForm d c
  -- one blank stands between the name and the type, which begins with none
  have htrim : trimStart (' ' :: ((d.columnType c).toList ++ ' ' :: (c.flagText d).toList))
      = (d.columnType c).toList ++ ' ' :: (c.flagText d).toList := by
    obtain ⟨x, rest, hx, hblank⟩ := hform.solid.head
    rw [trimStart, List.dropWhile_cons_of_pos (by decide), hx, List.cons_append,
      List.dropWhile_cons_of_neg (by simp [hblank])]
  rw [columnOfPiece, splitName_definition h]
  show ({ columnOfDeclared _ (declaredType 0 (trimStart _)) with
    isPrimaryKey := _, isNullable := _, isAutoIncrementing := _ } : ColumnInfo) = _
  rw [htrim, hform.declaredType_eq hstart, columnOfDeclared_typeForm hform,
    occursIn_rest d c (by simp [flagNeedles]), occursIn_rest d c (by simp [flagNeedles]),
    occursIn_rest d c (by simp [flagNeedles]), hkey, hnull, hgen, Bool.not_not,
    admitsNull_and_not_key]
  rfl

/-- A definition is no constraint of the table, since it begins with a mark. -/
theorem readPiece_definition {d : Dialect} {c : ColumnDesign} (h : d.isValidName c.name = true)
    {text : List Char} (htext : trim text = (c.definition d).toList) :
    readPiece text = .column (c.readBack d) := by
  have hconstraint : isConstraint (c.definition d).toList = false := by
    rw [toList_definition h]
    cases d <;> rfl
  have hempty : (c.definition d).toList.isEmpty = false := by
    rw [toList_definition h]
    rfl
  rw [readPiece, htext, hempty, hconstraint]
  show Piece.column (columnOfPiece _) = _
  rw [columnOfPiece_definition h]

end ColumnDesign

/-! ## Statements -/

namespace Schema

/-- Pieces that are columns are the columns of their statement. -/
theorem columnsOfPieces_columns (columns : List ColumnInfo) :
    columnsOfPieces (columns.map Piece.column) = columns := by
  unfold columnsOfPieces
  rw [List.filterMap_map, List.flatMap_map]
  show (columns.flatMap fun _ => []).foldl (fun columns key => markKey key columns)
    (columns.filterMap some) = columns
  rw [List.filterMap_some, List.flatMap_eq_nil_iff.mpr fun _ _ => rfl]
  rfl

/-- Texts that are columns, blanks around them aside, are read one by one. -/
theorem map_readPiece {α : Type} {text : α → List Char} {info : α → ColumnInfo} {items : List α}
    (h : ∀ a ∈ items, ∀ {cs}, trim cs = text a → readPiece cs = .column (info a)) :
    ∀ {texts : List (List Char)}, texts.map trim = items.map text →
      texts.map readPiece = (items.map info).map Piece.column := by
  -- induction on the items, with their texts left open
  induction items with
  | nil =>
      intro texts htexts
      rw [List.map_eq_nil_iff.mp htexts]
      rfl
  | cons a items ih =>
      intro texts htexts
      cases texts with
      | nil => exact nomatch htexts
      | cons cs texts =>
          obtain ⟨htrim, hrest⟩ := List.cons.inj htexts
          rw [List.map_cons, h a (List.mem_cons_self ..) htrim,
            ih (fun e he => h e (List.mem_cons_of_mem _ he)) hrest]
          rfl

/-- A statement whose body falls into texts of columns has these columns. -/
theorem readColumns_of_pieces {α : Type} {text : α → List Char} {info : α → ColumnInfo}
    {items : List α} {sql : String} {body : List Char} (hbody : between? sql.toList = some body)
    (hpieces : (splitTopLevel 0 body).map trim = items.map text)
    (h : ∀ a ∈ items, ∀ {cs}, trim cs = text a → readPiece cs = .column (info a)) :
    readColumns sql = items.map info := by
  rw [readColumns, hbody]
  show columnsOfPieces ((splitTopLevel 0 body).map readPiece) = _
  rw [map_readPiece h hpieces, columnsOfPieces_columns]

end Schema

namespace TableDesign

/-- The text between the parentheses of a statement: a line for each column, indented.
    -/
def body (d : Dialect) (t : TableDesign) : List Char :=
  ['\n'] ++ (',' :: ['\n']).intercalate
    ((t.columns.map fun c => (c.definition d).toList).map ("    ".toList ++ ·)) ++ ['\n']

theorem toList_columnListText (d : Dialect) (t : TableDesign) :
    (t.columnListText d).toList = ' ' :: '(' :: (t.body d ++ [')']) := by
  simp [columnListText, body, toList_joinWith, Function.comp_def]

/-- **THE COLUMN LIST IS READ BACK**, whatever stands around it without a
    parenthesis. -/
theorem readColumns_columnListText {d : Dialect} {t : TableDesign} (h : Valid d t)
    {before after : String} (hbefore : '(' ∉ before.toList) (hafter : ')' ∉ after.toList) :
    readColumns (before ++ t.columnListText d ++ after)
      = t.columns.map (ColumnDesign.readBack d) := by
  -- the first parenthesis opens the body and the last one closes it
  have hbody : between? (before ++ t.columnListText d ++ after).toList = some (t.body d) := by
    have htext : (before ++ t.columnListText d ++ after).toList
        = (before.toList ++ [' ']) ++ '(' :: (t.body d ++ ')' :: after.toList) := by
      simp [toList_columnListText]
    rw [htext]
    refine between?_parens ?_ hafter
    simpa using hbefore
  have hpieces : ((splitTopLevel 0 (t.body d)).map trim)
      = t.columns.map fun c => (c.definition d).toList := by
    refine trim_splitTopLevel (by decide) (by decide) (by decide) (by decide)
      (by simpa using h.nonempty) ?_
    intro core hcore
    obtain ⟨c, hc, rfl⟩ := List.mem_map.mp hcore
    exact ColumnDesign.definition_level_solid (h.names c hc)
  exact readColumns_of_pieces hbody hpieces fun c hc _ htrim =>
    ColumnDesign.readPiece_definition (h.names c hc) htrim

/-- A statement is read back, with or without the semicolon at its end. -/
theorem readColumns_statement {d : Dialect} {t : TableDesign} (h : Valid d t) {after : String}
    (hafter : ')' ∉ after.toList) :
    readColumns ("CREATE TABLE " ++ d.quote t.tableName ++ t.columnListText d ++ after)
      = t.columns.map (ColumnDesign.readBack d) := by
  refine readColumns_columnListText h ?_ hafter
  have hname : '(' ∉ t.tableName.toList := Identifier.not_mem_of_isValid h.table rfl
  rw [String.toList_append, Dialect.toList_quote h.table]
  cases d <;> simp [Dialect.openingMark, Dialect.closingMark, hname]

end TableDesign

/-! ## The round trip -/

/-- The column that was read says what the design says of it: its name, its type
    with the length or the precision and scale, whether it may hold NULL, whether
    it is the key, and for SQLite whether it is generated. -/
structure ReadsBack (d : Dialect) (c : ColumnDesign) (m : ColumnInfo) : Prop where
  name : m.name = c.name
  type : m.type = .ok c.dataType
  length : m.length = if c.dataType = .string then c.length else none
  precision : m.precision = if c.dataType = .decimal then some (c.precision.getD 18) else none
  scale : m.scale = if c.dataType = .decimal then some (c.scale.getD 2) else none
  nullable : m.isNullable = true ↔
    c.isNullable = true ∧ c.isPrimaryKey = false ∧ c.isAutoIncrementing = false
  key : m.isPrimaryKey = true ↔
    c.isPrimaryKey = true ∨ (d = .sqlite ∧ c.isAutoIncrementing = true)
  generated : d = .sqlite → m.isAutoIncrementing = c.isAutoIncrementing

/-- Only SQLite marks a generated column after its key. -/
theorem Dialect.marksAfterKey_iff {d : Dialect} : d.marksAfterKey = true ↔ d = .sqlite := by
  cases d <;> simp [marksAfterKey]

/-- What comes back for a column says what its design says. -/
theorem ColumnDesign.readBack_readsBack (d : Dialect) (c : ColumnDesign) :
    ReadsBack d c (c.readBack d) where
  name := rfl
  type := by
    show DataType.parse (String.ofList _) = _
    rw [DataType.parse, (typeForm d c).parse_base]
  length := rfl
  precision := rfl
  scale := rfl
  nullable := by
    show c.admitsNull = true ↔ _
    simp [admitsNull, and_assoc]
  key := by
    show TableDesign.isKeyColumn d c = true ↔ _
    simp [TableDesign.isKeyColumn, Dialect.marksAfterKey_iff, and_comm]
  generated := by
    rintro rfl
    show c.markTrails .sqlite = _
    simp [markTrails, Dialect.marksAfterKey]

/-- **THE ROUND TRIP**: in every dialect, the statement of every accepted design is
    read as the columns of the design, one for each and in their order. -/
theorem TableDesign.readColumns_compile (d : Dialect) (t : TableDesign) (sql : String)
    (h : t.compile d = .ok sql) :
    List.Forall₂ (ReadsBack d) t.columns (readColumns sql) := by
  have hvalid : Valid d t := by
    refine validate_eq_ok_iff.mp ?_
    cases hv : t.validate d with
    | ok u => rfl
    | error e =>
        rw [compile, hv] at h
        exact nomatch h
  have hsql : t.createText d = sql := by
    rw [compile, validate_eq_ok_iff.mpr hvalid] at h
    exact Except.ok.inj h
  have hread : readColumns (t.createText d) = t.columns.map (ColumnDesign.readBack d) :=
    readColumns_statement hvalid (by simp)
  rw [← hsql, hread, List.forall₂_map_right_iff]
  exact List.forall₂_same.mpr fun c _ => c.readBack_readsBack d

/-- A design with every kind of type, and with a name that contains two flags.  The name
    is not searched, so it misleads nobody. -/
def ledgerDesign : TableDesign where
  tableName := "Ledger"
  columns := [
    { name := "Not_Null_Autoincrement", dataType := .string },
    { name := "Id", dataType := .integer, isPrimaryKey := true, isAutoIncrementing := true },
    { name := "Amount", dataType := .decimal, precision := some 10, isNullable := false },
    { name := "Posted", dataType := .dateTime },
    { name := "Settled", dataType := .boolean },
    { name := "Remark", dataType := .string, length := some 40 }]

/-- The statement of the ledger is read back.  In this dialect names are in brackets,
    and another word marks a generated value. -/
theorem readColumns_compile_ledgerDesign :
    ledgerDesign.compile .sqlServer = .ok (ledgerDesign.createText .sqlServer) ∧
      List.Forall₂ (ReadsBack .sqlServer) ledgerDesign.columns
        (readColumns (ledgerDesign.createText .sqlServer)) := by
  have hcompile : ledgerDesign.compile .sqlServer = .ok (ledgerDesign.createText .sqlServer) := by
    decide +kernel
  exact ⟨hcompile, TableDesign.readColumns_compile .sqlServer ledgerDesign _ hcompile⟩

end Gridbase
