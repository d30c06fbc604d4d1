import Gridbase.Proofs.Command.Import
import Gridbase.Proofs.Gateway.Landing
import Gridbase.Proofs.Intake.Content
import Gridbase.Proofs.Schema.Declared
import Mathlib.Data.List.TakeWhile

/-! # Rows of a sheet that share a row of the table

    An import with a key puts the rows of the sheet under it, one after the other.  Two of them
    end in one row of the table only if their keys are stored as equals.

    The key of a row need not stand in its cell: a cell that is blank or refused gives the
    substitute of its type, if the column holds no NULL (`IsKey`).  So rows without a key share
    one, where problems are allowed.  NULL is no key: the row number never has to be made, since
    its column is described as one that needs an integer (`describe_of_isRowNumber`). -/

namespace Gridbase

open Gridbase.Text Gridbase.Session Gridbase.Gateway

/-! ## The column of the key -/

theorem Text.isBlank_toLower (c : Char) : isBlank c.toLower = isBlank c := by
  have hletters : ∀ k < 91, 65 ≤ k →
      isBlank (Char.ofNat k).toLower = isBlank (Char.ofNat k) := by decide
  rcases toLower_eq_or_letter c with hsame | ⟨k, hk, hlow, rfl⟩
  · rw [hsame]
  · exact hletters k hk hlow

namespace Catalog

/-- A described column has the name of the column, and its declared type in upper case without
    arguments. -/
theorem describe_bare (generated : Bool) (c : StoredColumn) :
    (describe generated c).name = c.name
      ∧ (describe generated c).dataType
        = String.ofList (upper (trim ((trim c.declaredType.toList).takeWhile (· != '(')))) := by
  obtain ⟨hname, htype⟩ := Schema.ofArguments_bare c.name.toList
    (upper (trim ((trim c.declaredType.toList).takeWhile (· != '('))))
    ((splitAt ',' (Schema.argumentText (trim c.declaredType.toList))).map Schema.argument?)
  rw [← Schema.columnOfDeclared_eq] at hname htype
  rw [String.ofList_toList] at hname
  rw [describe]
  exact ⟨hname, htype⟩

/-- **THE ROW NUMBER** is described as an integer that is needed.  Its values are whole
    numbers, so no two of them fall together when they are stored. -/
theorem describe_of_isRowNumber {c : StoredColumn} (h : c.isRowNumber = true) (generated : Bool) :
    (describe generated c).isNullable = false
      ∧ (describe generated c).type = .ok .integer := by
  rw [StoredColumn.isRowNumber, Bool.and_eq_true] at h
  obtain ⟨hprimary, hinteger⟩ := h
  have hlower := sameName_iff.mp hinteger
  -- the declared type has the letters of the word, in whatever case
  have hletter : ∀ x ∈ c.declaredType.toList, isBlank x = false ∧ (x != '(') = true := by
    have hword : (lower "INTEGER".toList).all (fun y => !isBlank y && y != '(') = true := by decide
    intro x hx
    have hlowered := List.all_eq_true.mp hword x.toLower (hlower ▸ List.mem_map_of_mem hx)
    rw [Bool.and_eq_true, isBlank_toLower, Bool.not_eq_true', bne_iff_ne] at hlowered
    refine ⟨hlowered.1, bne_iff_ne.mpr ?_⟩
    rintro rfl
    exact hlowered.2 rfl
  have hne : c.declaredType.toList ≠ [] := by
    intro hnil
    rw [hnil] at hlower
    exact absurd hlower (by decide)
  have hsolid := solid_of_no_blank hne fun x hx => (hletter x hx).1
  have hupper : upper c.declaredType.toList = "INTEGER".toList := by
    rw [← upper_lower, hlower]
    decide
  have hall : c.declaredType.toList.takeWhile (· != '(') = c.declaredType.toList :=
    List.takeWhile_eq_self_iff.mpr fun x hx => (hletter x hx).2
  constructor
  · show (!c.notNull && !c.primaryKey) = false
    rw [hprimary, Bool.not_true, Bool.and_false]
  · refine Intake.type_of_parse? ?_
    rw [(describe_bare ..).2, trim_solid hsolid, hall, trim_solid hsolid, hupper]
    decide +kernel

/-- The columns that are learnt describe those of the table. -/
theorem liveColumns_eq {db : Database} {table : String} {t : Table}
    (h : db.reachable? table = some t) :
    liveColumns db table = .ok (t.columns.map (describe (mentionsGenerated t.sql))) := by
  rw [liveColumns, columns, h]

end Catalog

namespace Intake

/-- A value that a text has as a key: what its column reads in it, or the substitute of the
    type, where the column reads nothing and holds no NULL. -/
inductive IsKey (info : ColumnInfo) (text : String) : Value → Prop
  | parsed {v : Value} (h : parsed? info text = some v) : IsKey info text v
  | substituted (h : parsed? info text = none) (needed : info.isNullable = false) :
      IsKey info text (filled info)

/-- What is written for a text is a key, or NULL. -/
theorem isKey_content {info : ColumnInfo} {text : String} (h : content info text ≠ .null) :
    IsKey info text (content info text) := by
  rw [content] at h ⊢
  cases hparsed : parsed? info text with
  | some v => exact .parsed hparsed
  | none =>
      rw [hparsed, Option.getD_none, absent] at h
      rw [Option.getD_none, absent]
      cases hnullable : info.isNullable with
      | true =>
          rw [hnullable] at h
          exact absurd rfl h
      | false =>
          rw [if_neg Bool.false_ne_true]
          exact .substituted hparsed hnullable

/-- Where nothing is read, a value that is needed is substituted. -/
theorem substituted_of_parsed? {k : Kept} {text : String} (h : parsed? k.info text = none)
    (hneeded : k.info.isNullable = false) : Substituted k text := by
  refine ⟨?_, hneeded⟩
  rcases cell_cases k text with hblank | ⟨hblank, htype⟩ | ⟨t, fault, hblank, htype, hread⟩
    | ⟨t, v, hblank, htype, hread⟩
  · exact Or.inl hblank
  · exact Or.inr ⟨hblank, Or.inl ⟨_, type_of_parse?_none htype⟩⟩
  · exact Or.inr ⟨hblank, Or.inr ⟨t, fault, type_of_parse? htype, hread⟩⟩
  · rw [parsed?, hblank, htype, if_neg Bool.false_ne_true, Option.bind_some, hread] at h
    exact absurd h (Option.some_ne_none v)

/-- In a clean report every key was read. -/
theorem IsKey.parsed_of_clean {w : Watch} {s : Sheet} {columns : List ColumnInfo} {table : String}
    {r : Report} (hrun : run w s columns table = .ok r) (hclean : r.problems = []) {k : Kept}
    (hk : k ∈ keptHeaders columns s) {i : Nat} (hi : i < r.dataset.rowCount) {v : Value}
    (h : IsKey k.info (cellUnder s (i + 2) k) v) :
    parsed? k.info (cellUnder s (i + 2) k) = some v := by
  cases h with
  | parsed h => exact h
  | substituted h hneeded =>
      rw [run_problems_eq hrun] at hclean
      have haccepted := (problemLog_eq_nil_iff.mp hclean).accepted i hi k hk
      exact absurd (substituted_of_parsed? h hneeded) haccepted.2

/-- The content of a cell is admitted by its column. -/
theorem admits_content (s : Sheet) (i : Nat) (k : Kept) :
    Admits k.info (content k.info (cellUnder s (i + 2) k)) := by
  rw [← textUnder_row s (i + 1) k, ← readCell_value (i + 2)]
  exact admits_readCell ..

/-- An integer that is needed is there. -/
theorem ofValue_ne_null_of_admits {info : ColumnInfo} {v : Value} (h : Admits info v)
    (hneeded : info.isNullable = false) (hinteger : info.type = .ok .integer) :
    Stored.ofValue v ≠ .null := by
  cases h with
  | unsupported type => exact nomatch hinteger.symm.trans type
  | absent type nullable => exact nomatch hneeded.symm.trans nullable
  | present type fits => cases fits <;> exact Stored.noConfusion
  | zero type required => exact nomatch hinteger.symm.trans type

end Intake

/-! ## The rows of a report -/

namespace Command

open Intake Catalog

variable {key : String} {t : Table} {generated : Bool} {s : Sheet} {k : Kept}

/-- A kept header of the key describes the column of the key. -/
theorem exists_column_of_kept
    (hk : k ∈ keptHeaders (t.columns.map (describe generated)) s)
    (hname : sameName k.info.name key = true) :
    ∃ i c, t.position? key = some i ∧ t.columns[i]? = some c ∧ k.info = describe generated c := by
  have hfirst := firstNamed_of_named (named_of_mem_matched ((firstUses_sublist _).mem hk)).2
  have hfind := hfirst.find?_eq
  have hsame : (fun c => sameName (describe generated c).name k.info.name)
      = fun c : StoredColumn => sameName c.name key := by
    funext c
    rw [(describe_bare ..).1, sameName_comm, sameName_congr hname, sameName_comm]
  rw [List.find?_map, Function.comp_def, hsame, Option.map_eq_some_iff] at hfind
  obtain ⟨c, hc, hinfo⟩ := hfind
  obtain ⟨hnamed, i, hi, hat, hbefore⟩ := List.find?_eq_some_iff_getElem.mp hc
  refine ⟨i, c, ?_, List.getElem?_eq_some_iff.mpr ⟨hi, hat⟩, hinfo.symm⟩
  refine List.findIdx?_eq_some_iff_getElem.mpr ⟨hi, hat ▸ hnamed, fun j hj => ?_⟩
  simpa using hbefore j hj

variable {w : Watch} {columns : List ColumnInfo} {table : String} {r : Report}

/-- The key of a row of the dataset is the content of its cell. -/
theorem get?_of_run (hrun : Intake.run w s columns table = .ok r) (hk : k ∈ keptHeaders columns s)
    (hname : sameName k.info.name key = true) {n : Nat} {row : Row}
    (hrow : r.dataset.rows[n]? = some row) :
    n < r.dataset.rowCount ∧ row.get? key = some (content k.info (cellUnder s (n + 2) k)) := by
  have hn : n < r.dataset.rowCount := by
    rw [← Dataset.length_rows]
    exact (List.getElem?_eq_some_iff.mp hrow).1
  refine ⟨hn, ?_⟩
  have hmem : (⟨k.info.name, (List.range r.dataset.rowCount).map fun i =>
      content k.info (cellUnder s (i + 2) k)⟩ : DataColumn) ∈ r.dataset.columns := by
    have hcolumns := run_columns hrun
    rw [hcolumns]
    exact List.mem_map_of_mem hk
  obtain ⟨v, hv, hget⟩ := Dataset.get?_row (built_of_run hrun) hrow hmem
  rw [List.getElem?_map, List.getElem?_range hn] at hv
  rw [← Row.get?_congr hname, hget, ← hv]
  rfl

/-- Every row of the dataset has a key, and a number where the key is the row number. -/
theorem hasKey_of_run {i : Nat} {c : StoredColumn} (hcolumn : t.columns[i]? = some c)
    (hinfo : k.info = describe generated c)
    (hrun : Intake.run w s columns table = .ok r) (hk : k ∈ keptHeaders columns s)
    (hname : sameName k.info.name key = true) :
    ∀ row ∈ r.dataset.rows, Database.HasKey t key i row := by
  intro row hrow
  obtain ⟨n, hn⟩ := List.getElem?_of_mem hrow
  refine ⟨_, (get?_of_run hrun hk hname hn).2, fun hnumber => ?_⟩
  have hrowNumber : c.isRowNumber = true := by
    obtain ⟨hi, hat, -⟩ := List.findIdx?_eq_some_iff_getElem.mp hnumber
    obtain ⟨_, rfl⟩ := List.getElem?_eq_some_iff.mp hcolumn
    exact hat
  obtain ⟨hneeded, htype⟩ := describe_of_isRowNumber hrowNumber generated
  rw [← hinfo] at hneeded htype
  exact ofValue_ne_null_of_admits (admits_content s n k) hneeded htype

/-- What a row lands with is a key of its cell, if it is not NULL. -/
theorem isKey_of_lands (hrun : Intake.run w s columns table = .ok r)
    (hk : k ∈ keptHeaders columns s) (hname : sameName k.info.name key = true) {db : Database}
    {n p : Nat} {v : Value} (hlands : db.RowLands table key r.dataset.rows n p v)
    (hv : Stored.ofValue v ≠ .null) :
    n < r.dataset.rowCount ∧ IsKey k.info (cellUnder s (n + 2) k) v := by
  obtain ⟨row, -, hrow, hget, -⟩ := hlands
  obtain ⟨hn, hcell⟩ := get?_of_run hrun hk hname hrow
  obtain rfl := Option.some.inj (hcell.symm.trans hget)
  exact ⟨hn, isKey_content fun hnull => hv (by rw [hnull]; rfl)⟩

/-! ## The import -/

variable {g : Gateway} {grid : InputFile} {options : ImportOptions} {σ σ' : Session}

/-- The writing of an import with a key.  The dataset is put row by row, and the rows
    before the end of the run are those that were put. -/
theorem run_writing_of_key (hkey : options.key = some key) (hd : r.dataset.Built)
    {result : Except CommandFault Unit}
    (hwriting : (act (writing g r options)).run σ = (result, σ')) :
    ((∃ fault, result = .error fault) ∧ σ' = σ)
      ∨ (∃ c ∈ r.dataset.columns, sameName c.name key = true)
        ∧ ∃ n ≤ r.dataset.rowCount,
          Database.putAll r.dataset.table key σ.database (r.dataset.rows.take n) = .ok σ'.database
          ∧ (result = .ok () → n = r.dataset.rowCount) := by
  rw [run_act, writing, hkey, run_discard] at hwriting
  cases hrun : (g.upsertDataset .never r.dataset key).run σ with
  | mk written σ₁ =>
      rw [hrun] at hwriting
      -- the rows before the failure stay put, so that both ends give a beginning
      have hcases := upsertDataset_cases hd hrun
      rw [Dataset.length_rows] at hcases
      cases written with
      | error f =>
          obtain ⟨rfl, rfl⟩ := Prod.mk.inj hwriting
          rcases hcases with ⟨-, hsame⟩ | ⟨hhas, n, hn, hall, -⟩
          · exact Or.inl ⟨⟨_, rfl⟩, hsame⟩
          · exact Or.inr ⟨hhas, n, hn, hall, by rintro ⟨⟩⟩
      | ok tally =>
          obtain ⟨rfl, rfl⟩ := Prod.mk.inj hwriting
          rcases hcases with ⟨⟨f, ⟨⟩⟩, -⟩ | ⟨hhas, n, hn, hall, hend⟩
          exact Or.inr ⟨hhas, n, hn, hall, fun _ => hend tally rfl⟩

/-- Rows `m` and `n` of a sheet, counted from zero below the headers, have keys `a` and `b` that
    are stored as equals. -/
structure SharesKey (s : Sheet) (k : Kept) (c : StoredColumn) (m n : Nat) (a b : Value) :
    Prop where
  first : IsKey k.info (cellUnder s (m + 2) k) a
  second : IsKey k.info (cellUnder s (n + 2) k) b
  same : (c.affinity.store (.ofValue a)).same (c.affinity.store (.ofValue b)) = true

/-- The rows are put under a key, which is read as a column: the clock would be read over a
    column that has one of its words for a name. -/
structure KeyedBy (options : ImportOptions) (key : String) : Prop where
  given : options.key = some key
  column : Word.isClock key = false

/-- **ROWS SHARE A ROW OF THE TABLE BY THEIR KEYS ONLY.**  An import with a key fails and leaves
    the session alone, or it puts rows of the report under the key, one after the other, and all
    of them if it succeeds.  Whenever two of them land at one position of the table, their keys
    are stored as equals by the column of the key; and both keys stand in their cells, unless the
    report has problems. -/
theorem importRows_lands_by_key (g : Gateway) (table : String) (grid : InputFile)
    (options : ImportOptions) (key : String) (hkey : KeyedBy options key) (σ σ' : Session)
    (result : Except CommandFault Unit)
    (hrun : (importRows g table grid options).run σ = (result, σ')) :
    ((∃ fault, result = .error fault) ∧ σ' = σ)
      ∨ ∃ rows columns r k t i c, Reads g σ.database table grid rows columns
        ∧ Intake.run .never (Sheet.ofRows rows) columns table = .ok r
        ∧ k ∈ keptHeaders columns (Sheet.ofRows rows) ∧ sameName k.info.name key = true
        ∧ σ.database.reachable? table = some t ∧ t.position? key = some i
        ∧ t.columns[i]? = some c
        ∧ (∃ n ≤ r.dataset.rowCount,
          Database.putAll table key σ.database (r.dataset.rows.take n) = .ok σ'.database
          ∧ (result = .ok () → n = r.dataset.rowCount))
        ∧ ∀ m n p a b, m < n → σ.database.RowLands table key r.dataset.rows m p a →
          σ.database.RowLands table key r.dataset.rows n p b →
          SharesKey (Sheet.ofRows rows) k c m n a b
            ∧ (r.problems = [] →
              parsed? k.info (cellUnder (Sheet.ofRows rows) (m + 2) k) = some a
              ∧ parsed? k.info (cellUnder (Sheet.ofRows rows) (n + 2) k) = some b) := by
  -- a file, a name or a table that fails leaves the session alone, and so does a refusal
  rcases importRows_cases hrun with hfails | ⟨rows, columns, r, hreads, hintake, -, hwriting⟩
  · exact Or.inl hfails
  rcases run_writing_of_key hkey.given (built_of_run hintake) hwriting with
    hfails | ⟨⟨d, hd, hdname⟩, hputs⟩
  · exact Or.inl hfails
  right
  rw [table_of_run hintake] at hputs
  obtain ⟨t, hreach⟩ := reachable_of_liveColumns hreads.columns
  have hcolumns := Except.ok.inj (hreads.columns.symm.trans (Catalog.liveColumns_eq hreach))
  -- the key is a column of the dataset, hence the choice of some header
  obtain ⟨k, hk, hname⟩ : ∃ k ∈ keptHeaders columns (Sheet.ofRows rows),
      sameName k.info.name key = true := by
    rw [run_columns hintake] at hd
    obtain ⟨k, hk, rfl⟩ := List.mem_map.mp hd
    exact ⟨k, hk, hdname⟩
  have hkept := hk
  rw [hcolumns] at hkept
  obtain ⟨i, c, hposition, hcolumn, hinfo⟩ := exists_column_of_kept hkept hname
  have hrows := hasKey_of_run hcolumn hinfo hintake hk hname
  refine ⟨rows, columns, r, k, t, i, c, hreads, hintake, hk, hname, hreach, hposition, hcolumn,
    hputs, fun m n p a b hmn hm hn => ?_⟩
  -- the row that both put is one row, whose key agrees with both of them
  obtain ⟨ha, hb, hsame⟩ := Database.same_of_lands hposition hcolumn hrows hreach hmn hm hn
  obtain ⟨hmlt, hfirst⟩ := isKey_of_lands hintake hk hname hm ha
  obtain ⟨hnlt, hsecond⟩ := isKey_of_lands hintake hk hname hn hb
  exact ⟨⟨hfirst, hsecond, hsame⟩, fun hclean =>
    ⟨hfirst.parsed_of_clean hintake hclean hk hmlt,
      hsecond.parsed_of_clean hintake hclean hk hnlt⟩⟩

/-- A table of names under rates.  The rate is numeric and needed, so an empty cell is
    read as zero rather than as nothing. -/
def rates (rows : List Cells) : Table where
  name := "rates"
  writtenName := "rates"
  definition := " (rate NUMERIC NOT NULL, name TEXT)"
  generated := false
  columns := [
    { name := "rate", declaredType := "NUMERIC", notNull := true },
    { name := "name", declaredType := "TEXT" }]
  rows := rows

/-- A session with that table. -/
def ratesSession (rows : List Cells) : Session where
  database := { tables := [rates rows] }

/-- The rows of a file: two of them have no rate, and two have rates that no double tells
    apart. -/
def rateRows : List (List String) := [["rate", "name"], ["", "Ada"], [" ", "Bob"],
  ["0.1000000000000000055", "Cid"], ["0.1000000000000000056", "Dan"]]

/-- The file.  Two rates are blank, and two differ in their nineteenth place. -/
def rateFile : InputFile where
  path := "rates.json"
  text := some ("[[\"rate\", \"name\"], [\"\", \"Ada\"], [\" \", \"Bob\"], "
    ++ "[\"0.1000000000000000055\", \"Cid\"], [\"0.1000000000000000056\", \"Dan\"]]")

/-- The columns of the rates. -/
def rateInfos : List ColumnInfo := [
  { name := "rate", dataType := "NUMERIC" },
  { name := "name", dataType := "TEXT", isNullable := true }]

/-- A decimal with 19 digits after the point, more than a column of numbers keeps apart.
    -/
def rateOf (coefficient : Nat) (h : Nat.blt coefficient (2 ^ 96) = true) : Value :=
  .decimal { coefficient, scale := 19, coefficient_lt := Nat.le_of_ble_eq_true h }

/-- What is read of the file. -/
def rateReport : Intake.Report where
  dataset := ⟨"rates", [
    ⟨"rate", [.decimal Decimal.zero, .decimal Decimal.zero, rateOf 1000000000000000055 rfl,
      rateOf 1000000000000000056 rfl]⟩,
    ⟨"name", [.text "Ada", .text "Bob", .text "Cid", .text "Dan"]⟩]⟩
  problems := [.missingValue "rate" 2, .missingValue "rate" 3]

/-- The header of the rates. -/
def rateHeader : Intake.Kept := ⟨⟨"rate", 1⟩, { name := "rate", dataType := "NUMERIC" }, 0⟩

/-- Problems are allowed in the import of the rates. -/
def rateOptions : ImportOptions := { key := some "rate", allowProblems := true }

theorem reads_rates : Reads ⟨.ok "memory"⟩ (ratesSession []).database "rates" rateFile rateRows
    rateInfos :=
  ⟨by decide +kernel, by decide +kernel, by decide +kernel, by decide +kernel⟩

theorem run_rates : Intake.run .never (Sheet.ofRows rateRows) rateInfos "rates"
    = .ok rateReport := by
  decide +kernel

theorem importRows_rates : ((importRows ⟨.ok "memory"⟩ "rates" rateFile rateOptions).run
    (ratesSession [])).1 = .ok () := by
  rw [run_importRows_of_reads reads_rates, run_rates]
  decide +kernel

/-- A row of the report. -/
def rateRow (rate : Value) (name : String) : Row := ⟨[⟨"rate", rate⟩, ⟨"name", .text name⟩]⟩

/-- A row of the report lands where its rate is found, in the table that the rows before it
    leave. -/
theorem rowLands_rates {rate : Value} {n p : Nat} (name : String) (before after : List Cells)
    (outcome : Upserted) (hrow : rateReport.dataset.rows[n]? = some (rateRow rate name))
    (hbefore : Database.putAll "rates" "rate" (ratesSession []).database
      (rateReport.dataset.rows.take n) = .ok (ratesSession before).database)
    (hput : (ratesSession before).database.put "rates" "rate" (rateRow rate name) rate
      = .ok (outcome, (ratesSession after).database))
    (hlands : (rates before).Lands
      (Search.selects [⟨.and, 0, .numeric, .eq, Stored.ofValue rate⟩]) p) :
    (ratesSession []).database.RowLands "rates" "rate" rateReport.dataset.rows n p rate := by
  have hget : (rateRow rate name).get? "rate" = some rate :=
    congrArg (Option.map Entry.value) (List.find?_cons_of_pos (sameName_refl "rate"))
  have hfind : (ratesSession before).database.table? "rates" = some (rates before) :=
    List.find?_cons_of_pos (sameName_refl "rates")
  have hreach : (ratesSession before).database.reachable? "rates" = some (rates before) := by
    rw [Database.reachable?, hfind]
  have hkey : (rates before).position? "rate" = some 0 := by
    show List.findIdx? _ (rates []).columns = some 0
    decide +kernel
  have haffinity : ({ name := "rate", declaredType := "NUMERIC", notNull := true } :
      StoredColumn).affinity = .numeric := by decide +kernel
  -- the lookup compares with the key as the column stores it
  have hterms := Search.terms_is hkey rfl rate
  rw [haffinity] at hterms
  exact ⟨_, _, hrow, hget, hbefore, outcome, _, rates before, _, hput, hreach, hterms, hlands⟩

theorem rowLands_ada : (ratesSession []).database.RowLands "rates" "rate" rateReport.dataset.rows
    0 0 (.decimal Decimal.zero) :=
  rowLands_rates "Ada" [] [[.integer 0, .text "Ada"]] .inserted (by decide +kernel) rfl
    (by decide +kernel) (Or.inr ⟨by decide +kernel, rfl⟩)

theorem rowLands_bob : (ratesSession []).database.RowLands "rates" "rate" rateReport.dataset.rows
    1 0 (.decimal Decimal.zero) :=
  rowLands_rates "Bob" [[.integer 0, .text "Ada"]] [[.integer 0, .text "Bob"]] .updated
    (by decide +kernel) (by decide +kernel) (by decide +kernel)
    (Or.inl ⟨_, rfl, by decide +kernel⟩)

/-- The two rows without a rate share the substitute.  Both are blank, so both are read
    as zero, and that is one key. -/
theorem importRows_lands_by_key_rates : ∃ k c,
    SharesKey (Sheet.ofRows rateRows) k c 0 1 (.decimal Decimal.zero) (.decimal Decimal.zero) := by
  cases hrun : (importRows ⟨.ok "memory"⟩ "rates" rateFile rateOptions).run (ratesSession []) with
  | mk result σ' =>
      have hresult := importRows_rates
      rw [hrun] at hresult
      obtain rfl : result = .ok () := hresult
      rcases importRows_lands_by_key _ _ _ _ "rate" ⟨rfl, by decide +kernel⟩ _ _ _ hrun with ⟨⟨fault, hfault⟩, -⟩
        | ⟨rows, columns, r, k, t, i, c, hreads, hintake, -, -, -, -, -, -, hshares⟩
      · exact nomatch hfault
      · obtain ⟨rfl, rfl⟩ := reads_rates.unique hreads
        obtain rfl : rateReport = r := Except.ok.inj (run_rates.symm.trans hintake)
        exact ⟨k, c, (hshares 0 1 0 _ _ Nat.zero_lt_one rowLands_ada rowLands_bob).1⟩

/-- Two rows of a sheet end in one row of the table, at a position, when the sheet is imported
    under a key; `k` is the header of the key. -/
structure Merges (g : Gateway) (table : String) (grid : InputFile) (options : ImportOptions)
    (σ : Session) (rows : List (List String)) (k : Kept) (m n p : Nat) : Prop where
  succeeds : ((importRows g table grid options).run σ).1 = .ok ()
  different : m < n
  keyed : ∃ key columns r a b, options.key = some key
    ∧ Reads g σ.database table grid rows columns
    ∧ Intake.run .never (Sheet.ofRows rows) columns table = .ok r
    ∧ k ∈ keptHeaders columns (Sheet.ofRows rows) ∧ sameName k.info.name key = true
    ∧ σ.database.RowLands table key r.dataset.rows m p a
    ∧ σ.database.RowLands table key r.dataset.rows n p b

/-- The rows without a rate land on one row. -/
theorem merges_blank : Merges ⟨.ok "memory"⟩ "rates" rateFile rateOptions (ratesSession [])
    rateRows rateHeader 0 1 0 where
  succeeds := importRows_rates
  different := Nat.zero_lt_one
  keyed := ⟨"rate", rateInfos, rateReport, _, _, rfl, reads_rates, run_rates, by decide +kernel,
    by decide +kernel, rowLands_ada, rowLands_bob⟩

/-- The rows whose rates no double tells apart land on one row. -/
theorem merges_close : Merges ⟨.ok "memory"⟩ "rates" rateFile rateOptions (ratesSession [])
    rateRows rateHeader 2 3 1 where
  succeeds := importRows_rates
  different := Nat.lt_succ_self 2
  keyed := by
    refine ⟨"rate", rateInfos, rateReport, rateOf 1000000000000000055 rfl,
      rateOf 1000000000000000056 rfl, rfl, reads_rates, run_rates, by decide +kernel,
      by decide +kernel, ?_, ?_⟩
    · exact rowLands_rates "Cid" [[.integer 0, .text "Bob"]]
        [[.integer 0, .text "Bob"], [.real ⟨0x3FB999999999999A⟩, .text "Cid"]] .inserted
        (by decide +kernel) (by decide +kernel) (by decide +kernel)
        (Or.inr ⟨by decide +kernel, rfl⟩)
    · exact rowLands_rates "Dan"
        [[.integer 0, .text "Bob"], [.real ⟨0x3FB999999999999A⟩, .text "Cid"]]
        [[.integer 0, .text "Bob"], [.real ⟨0x3FB999999999999A⟩, .text "Dan"]] .updated
        (by decide +kernel) (by decide +kernel) (by decide +kernel)
        (Or.inl ⟨_, rfl, by decide +kernel⟩)

/-- Rows that share a row of the table need not have keys that are read, and keys that are read
    need not be equal. -/
theorem importRows_merges_other_keys :
    (¬ ∀ g table grid options σ rows k m n p, Merges g table grid options σ rows k m n p →
        (Intake.parsed? k.info (Intake.cellUnder (Sheet.ofRows rows) (m + 2) k)).isSome = true
          ∧ (Intake.parsed? k.info (Intake.cellUnder (Sheet.ofRows rows) (n + 2) k)).isSome = true)
      ∧ ¬ ∀ g table grid options σ rows k m n p, Merges g table grid options σ rows k m n p →
        ∀ a b, Intake.parsed? k.info (Intake.cellUnder (Sheet.ofRows rows) (m + 2) k) = some a →
          Intake.parsed? k.info (Intake.cellUnder (Sheet.ofRows rows) (n + 2) k) = some b →
          a.equal b = true := by
  constructor
  · intro hread
    have hblank := (hread _ _ _ _ _ _ _ _ _ _ merges_blank).1
    exact absurd hblank (by decide +kernel)
  · intro hequal
    have hclose := hequal _ _ _ _ _ _ _ _ _ _ merges_close (rateOf 1000000000000000055 rfl)
      (rateOf 1000000000000000056 rfl) (by decide +kernel) (by decide +kernel)
    exact absurd hclose (by decide +kernel)

end Command

end Gridbase
