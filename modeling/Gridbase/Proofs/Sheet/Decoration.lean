import Gridbase.Proofs.Sheet.ColumnLetters
import Gridbase.Proofs.Sheet.Forms

/-! # Decoration — all or nothing

    A sheet is made a form in place (`decorate`): the metadata is checked first, and written only
    if all of it can be in a form.

    * Of metadata that cannot, the FIRST fault is reported (`FirstFault`) in its words
      (`FormFault.Reports`), and the sheet is as it was.
    * Otherwise the sheet is the form of the metadata (`FormOf`): every column has its header, is
      open for input and has the rule that fits its type, and nothing else on the sheet is changed.

    One of both is the outcome, and it is the outcome of `entryForm` (`decorate_allOrNothing`). -/

namespace Gridbase

/-! ## What is reported -/

/-- The failure that reports a fault, with the index, or with the type and the column, that it is
    about. -/
inductive FormFault.Reports : FormFault → Failure → Prop
  | noColumns : Reports .noColumns (.validation ["Column metadata cannot be empty."])
  | blankName (index : Nat) : Reports (.blankName index)
      (.validation ["Column name at index " ++ toString index ++ " cannot be empty."])
  | unknownType (dataType column : String) : Reports (.unknownType dataType column)
      (.unsupportedType ("Invalid data type '" ++ dataType ++ "' for column '" ++ column ++ "'."))

theorem FormFault.reports_toFailure (fault : FormFault) : fault.Reports fault.toFailure := by
  cases fault <;> constructor

namespace Sheet

open Gridbase.Text

/-! ## Checks -/

/-- Metadata that can be in a form: it has a name and a type that is known. -/
def Formable (c : ColumnInfo) : Prop :=
  allBlank c.name = false ∧ ∃ t, DataType.parse? c.dataType = some t

/-- What keeps metadata from giving a form: there is no column, or there is one, at some index and
    after columns that can be in a form, whose name is blank or whose type is not known. -/
inductive FirstFault (columns : List ColumnInfo) : FormFault → Prop
  | noColumns (h : columns = []) : FirstFault columns .noColumns
  | blankName {i : Nat} {c : ColumnInfo} (hc : columns[i]? = some c)
      (hbefore : ∀ c' ∈ columns.take i, Formable c') (hblank : allBlank c.name = true) :
      FirstFault columns (.blankName i)
  | unknownType {i : Nat} {c : ColumnInfo} (hc : columns[i]? = some c)
      (hbefore : ∀ c' ∈ columns.take i, Formable c') (hname : allBlank c.name = false)
      (htype : DataType.parse? c.dataType = none) :
      FirstFault columns (.unknownType c.dataType c.name)

/-- The column of a form for some metadata: its name, its type and its length are those
    of the metadata. -/
structure Forms (c : ColumnInfo) (f : FormColumn) : Prop where
  solid : allBlank c.name = false
  name : f.name = c.name
  type : DataType.parse? c.dataType = some f.type
  length : f.length = c.length

theorem Forms.formable {c : ColumnInfo} {f : FormColumn} (h : Forms c f) : Formable c :=
  ⟨h.solid, f.type, h.type⟩

/-- The check of one column either forms it or reports it by its index. -/
theorem formColumn_cases (index : Nat) (c : ColumnInfo) :
    (∃ f, formColumn index c = .ok f ∧ Forms c f)
      ∨ (allBlank c.name = true ∧ formColumn index c = .error (.blankName index))
      ∨ (allBlank c.name = false ∧ DataType.parse? c.dataType = none
          ∧ formColumn index c = .error (.unknownType c.dataType c.name)) := by
  rw [formColumn]
  cases hname : allBlank c.name with
  | true => exact Or.inr (Or.inl ⟨rfl, rfl⟩)
  | false =>
      cases htype : DataType.parse? c.dataType with
      | none => exact Or.inr (Or.inr ⟨rfl, rfl, rfl⟩)
      | some t => exact Or.inl ⟨_, rfl, hname, rfl, htype, rfl⟩

/-- The check of all columns forms each of them, or stops at the first that it cannot
    form.  The index is left open, for the induction to go through the columns. -/
theorem formColumnsFrom_cases (columns : List ColumnInfo) :
    ∀ index : Nat,
      (∃ formed, formColumnsFrom index columns = .ok formed ∧ List.Forall₂ Forms columns formed)
      ∨ ∃ (i : Nat) (c : ColumnInfo) (fault : FormFault), columns[i]? = some c
          ∧ (∀ c' ∈ columns.take i, Formable c') ∧ formColumn (index + i) c = .error fault
          ∧ formColumnsFrom index columns = .error fault := by
  -- induction on the metadata, with the index left open
  induction columns with
  | nil => exact fun index => Or.inl ⟨[], rfl, .nil⟩
  | cons c columns ih =>
      intro index
      rw [formColumnsFrom]
      cases hcolumn : formColumn index c with
      | error fault =>
          exact Or.inr ⟨0, c, fault, rfl, fun _ hc => (List.not_mem_nil hc).elim, hcolumn, rfl⟩
      | ok f =>
          have hforms : Forms c f := by
            rcases formColumn_cases index c with ⟨f', hf', h⟩ | ⟨-, h⟩ | ⟨-, -, h⟩
            · obtain rfl : f' = f := Except.ok.inj (hf'.symm.trans hcolumn)
              exact h
            · exact nomatch h.symm.trans hcolumn
            · exact nomatch h.symm.trans hcolumn
          rcases ih (index + 1) with ⟨formed, hformed, hall⟩ | ⟨i, c', fault, hc', hbefore, hfault, h⟩
          · rw [hformed]
            exact Or.inl ⟨f :: formed, rfl, .cons hforms hall⟩
          · rw [h]
            refine Or.inr ⟨i + 1, c', fault, hc', ?_, ?_, rfl⟩
            · exact List.forall_mem_cons.mpr ⟨hforms.formable, hbefore⟩
            · rwa [Nat.add_assoc, Nat.add_comm 1 i] at hfault

/-- **METADATA GIVES A FORM, OR ITS FIRST FAULT.**  Nothing is written before all
    columns are checked. -/
theorem formColumns_cases (columns : List ColumnInfo) :
    (∃ formed, formColumns columns = .ok formed ∧ columns ≠ []
        ∧ List.Forall₂ Forms columns formed)
      ∨ ∃ fault, formColumns columns = .error fault ∧ FirstFault columns fault := by
  cases columns with
  | nil => exact Or.inr ⟨.noColumns, rfl, .noColumns rfl⟩
  | cons c columns =>
      rw [formColumns, List.isEmpty_cons, if_neg Bool.false_ne_true]
      rcases formColumnsFrom_cases (c :: columns) 0 with
        ⟨formed, hformed, hall⟩ | ⟨i, c', fault, hc', hbefore, hfault, h⟩
      · exact Or.inl ⟨formed, hformed, List.cons_ne_nil c columns, hall⟩
      · refine Or.inr ⟨fault, h, ?_⟩
        rw [Nat.zero_add] at hfault
        -- the entry at the fault is at fault for one of two reasons
        rcases formColumn_cases i c' with ⟨f, hf, -⟩ | ⟨hblank, hf⟩ | ⟨hname, htype, hf⟩
        · cases hf.symm.trans hfault
        · obtain rfl := Except.error.inj (hf.symm.trans hfault)
          exact .blankName hc' hbefore hblank
        · obtain rfl := Except.error.inj (hf.symm.trans hfault)
          exact .unknownType hc' hbefore hname htype

/-! ## Rules -/

/-- A column has a rule unless it is a text without a positive length, which any entry
    fits. -/
def HasRule (c : ColumnInfo) : Bool :=
  DataType.parse? c.dataType != some .string || c.length.any (0 < ·)

/-- What the cells of a column accept, by the type of the column.  A formula names the first cell
    below the header by the letters of the column. -/
def Accepts (letters : String) (length : Option UInt32) : DataType → InputRule → Prop
  | .integer, .wholeNumber min => min = -2147483648
  | .decimal, .decimal min => min = ⟨0xC5F0000000000000⟩
  | .dateTime, .date min => min.year = 1753 ∧ min.month = 1 ∧ min.day = 1
  | .boolean, .list items => items = ["TRUE", "FALSE"]
  | .string, .custom formula =>
      ∃ n, length = some n ∧ formula = "LEN(" ++ letters ++ "2)<=" ++ toString n.toNat
  | _, _ => False

/-- What is shown when an input is refused: only texts of a limited length have an alert of their
    own. -/
def Alerts (length : Option UInt32) : DataType → Option Alert → Prop
  | .string, alert => ∃ n, length = some n ∧ alert = some
      { title := "Invalid Input"
        message := "Text length must be less than or equal to " ++ toString n.toNat
          ++ " characters." }
  | _, alert => alert = none

/-- The rule for a column, over the cells below its header.  The range is told in the column's own
    letters, those whose number is the column. -/
structure IsRule (col : UInt32) (c : ColumnInfo) (letters : String) (t : DataType)
    (v : Validation) : Prop where
  lettered : Lettered letters.toList
  number : letterNumber letters.toList = col.toNat
  range : v.range = letters ++ "2:" ++ letters ++ "1048576"
  type : DataType.parse? c.dataType = some t
  rule : Accepts letters c.length t v.rule
  alert : Alerts c.length t v.alert
  ignoreBlank : v.ignoreBlank = true

/-- A column has this rule, in some letters and for some type. -/
def Rules (col : UInt32) (c : ColumnInfo) (v : Validation) : Prop :=
  ∃ letters t, IsRule col c letters t v

theorem lettered_columnLetters (col : UInt32) : Lettered (columnLetters col).toList := by
  intro c hc
  rw [toList_columnLetters] at hc
  exact lettered_reversedLetters col.toNat c (List.mem_reverse.mp hc)

theorem dataRange_eq (col : UInt32) :
    dataRange col = columnLetters col ++ "2:" ++ columnLetters col ++ "1048576" := by
  have hrow : Text.ofNat lastRow = "1048576" := by decide +kernel
  rw [dataRange, hrow]

/-- A column that has a rule gets the one for its type, and no other column gets one.
    The cases are those of the type. -/
theorem validation?_of_forms {c : ColumnInfo} {f : FormColumn} (h : Forms c f) (col : UInt32) :
    (HasRule c = true ∧ ∃ v, validation? col f = some v ∧ Rules col c v)
      ∨ (HasRule c = false ∧ validation? col f = none) := by
  have hrules : ∀ v : Validation, v.range = dataRange col → v.ignoreBlank = true →
      Accepts (columnLetters col) c.length f.type v.rule → Alerts c.length f.type v.alert →
      Rules col c v :=
    fun v hrange hblank haccepts halerts => ⟨columnLetters col, f.type, lettered_columnLetters col,
      letterNumber_columnLetters col, hrange.trans (dataRange_eq col), h.type, haccepts, halerts,
      hblank⟩
  rw [HasRule, h.type, validation?]
  -- the rule goes by the type alone, save that a text may have no limit
  cases hkind : f.type with
  | integer | decimal | boolean =>
      refine Or.inl ⟨rfl, _, rfl, hrules _ rfl rfl ?_ ?_⟩
      · rw [hkind]; rfl
      · rw [hkind]; rfl
  | dateTime =>
      refine Or.inl ⟨rfl, _, rfl, hrules _ rfl rfl ?_ ?_⟩
      · rw [hkind]; exact ⟨rfl, rfl, rfl⟩
      · rw [hkind]; rfl
  | string =>
      rw [h.length]
      cases hlength : c.length with
      | none => exact Or.inr ⟨rfl, rfl⟩
      | some n =>
          by_cases hzero : n = 0
          · subst hzero
            exact Or.inr ⟨rfl, rfl⟩
          · have hpos : 0 < n := by
              rw [UInt32.lt_iff_toNat_lt]
              exact toNat_pos hzero
            refine Or.inl ⟨by simp [hpos], lengthValidation col n, if_neg hzero,
              hrules _ rfl rfl ?_ ?_⟩
            · rw [hkind]; exact ⟨n, hlength, rfl⟩
            · rw [hkind]; exact ⟨n, hlength, rfl⟩

/-- The rules of a form are those of the columns that have one, in their order. -/
theorem rules_of_forms {columns : List ColumnInfo} {formed : List FormColumn}
    (h : List.Forall₂ Forms columns formed) :
    ∀ k : Nat, List.Forall₂ (fun c v => Rules (number c.2) c.1 v)
      ((columns.zipIdx k).filter fun c => HasRule c.1)
      ((formed.zipIdx k).filterMap fun c => validation? (number c.2) c.1) := by
  induction h with
  | nil => exact fun k => .nil
  | @cons c f columns formed hforms _ ih =>
      intro k
      rw [List.zipIdx_cons, List.zipIdx_cons, List.filter_cons, List.filterMap_cons]
      rcases validation?_of_forms hforms (number k) with ⟨hrule, v, hv, hfits⟩ | ⟨hrule, hv⟩
      · rw [hrule, if_pos rfl, hv]
        exact .cons hfits (ih (k + 1))
      · rw [hrule, if_neg Bool.false_ne_true, hv]
        exact ih (k + 1)

/-! ## Forms -/

/-- The form of some metadata on a sheet.  Its columns are numbered from 1, with 32 bits: only of
    `2 ^ 32` columns or more one can have the number zero, or the number of an earlier one. -/
structure FormOf (columns : List ColumnInfo) (s form : Sheet) : Prop where
  formable : columns ≠ [] ∧ ∀ c ∈ columns, Formable c
  numbers : columns.length < 2 ^ 32 → ∀ i < columns.length, (number i).toNat = i + 1
  headers : ∀ (i : Nat) (c : ColumnInfo), columns[i]? = some c → columns.length ≤ i + 2 ^ 32 →
    (i + 1) % 2 ^ 32 ≠ 0 → form.header (number i) = c.name
  headerStyles : ∀ i < columns.length, form.cellStyle? 1 (number i)
    = some { bold := true, fill := some "LightGray", locked := true }
  opened : ∀ i < columns.length, form.columnStyle? (number i)
    = some { bold := false, fill := none, locked := false }
  rules : ∃ added, form.validations = s.validations ++ added
    ∧ List.Forall₂ (fun c v => Rules (number c.2) c.1 v)
        (columns.zipIdx.filter fun c => HasRule c.1) added
  name : form.name = "Data Input"
  protection : form.protection = some
    { deleteColumns := false, insertColumns := false, deleteRows := true, insertRows := true
      sort := true, formatColumns := true, selectLockedCells := false
      selectUnlockedCells := true }
  otherCells : ∀ row col, (row = 1 → ∀ i < columns.length, number i ≠ col) →
    form.cell row col = s.cell row col ∧ form.cellStyle? row col = s.cellStyle? row col
  otherColumns : ∀ col, (∀ i < columns.length, number i ≠ col) →
    form.columnStyle? col = s.columnStyle? col

/-- A sheet that is made a form has the headers, styles, rules and protection of one,
    and is otherwise as it was. -/
theorem formOf_decorated {columns : List ColumnInfo} {formed : List FormColumn}
    (hne : columns ≠ []) (h : List.Forall₂ Forms columns formed) (s : Sheet) :
    FormOf columns s (decorated formed s) := by
  have hlength : columns.length = formed.length := h.length_eq
  -- a column of the form stands where its metadata stand
  have hat : ∀ {i : Nat} {c : ColumnInfo}, columns[i]? = some c →
      ∃ f, formed[i]? = some f ∧ Forms c f := by
    intro i c hc
    obtain ⟨hi, rfl⟩ := List.getElem?_eq_some_iff.mp hc
    exact ⟨formed[i], List.getElem?_eq_getElem (hlength ▸ hi),
      (List.forall₂_iff_get.mp h).2 i hi (hlength ▸ hi)⟩
  have hfollows := after_follows s (formCalls formed)
  rw [← decorated_eq] at hfollows
  constructor
  case formable =>
    refine ⟨hne, fun c hc => ?_⟩
    obtain ⟨i, hi⟩ := List.getElem?_of_mem hc
    obtain ⟨f, -, hforms⟩ := hat hi
    exact hforms.formable
  case numbers => exact fun hfit i hi => toNat_number (Nat.lt_of_le_of_lt hi hfit)
  case headers =>
    intro i c hc hfit hnumber
    obtain ⟨f, hf, hforms⟩ := hat hc
    rw [header, hfollows.cell 1 (number i) (by decide) fun h => hnumber (number_eq_zero_iff.mp h),
      last?_text?_formCalls hf (hlength ▸ hfit)]
    exact hforms.name
  case headerStyles =>
    intro i hi
    rw [hfollows.cellStyle?, last?_cellStyle?_formCalls (hlength ▸ hi)]
    rfl
  case opened =>
    intro i hi
    rw [hfollows.columnStyle?, last?_columnStyle?_formCalls (hlength ▸ hi)]
    rfl
  case rules => exact ⟨_, hfollows.validations.trans (by rw [validations_formCalls]),
    rules_of_forms h 0⟩
  case name => rw [hfollows.name, last?_name?_formCalls]; rfl
  case protection => rw [hfollows.protection, last?_protection?_formCalls]; rfl
  case otherCells =>
    intro row col hother
    rw [hlength] at hother
    refine ⟨?_, by rw [hfollows.cellStyle?, last?_cellStyle?_of_other hother]; rfl⟩
    by_cases hzero : row = 0 ∨ col = 0
    · rw [(hfollows.edge row col hzero).1, cell_of_zero hzero]
    · rw [not_or] at hzero
      rw [hfollows.cell row col hzero.1 hzero.2, last?_text?_of_other hother,
        textAt_of_cell hzero.1 hzero.2]
      rfl
  case otherColumns =>
    intro col hother
    rw [hlength] at hother
    rw [hfollows.columnStyle?, last?_columnStyle?_of_other hother]
    rfl

/-! ## In place -/

theorem run_writeHeaders (columns : List FormColumn) :
    ∀ (col : UInt32) (s : Sheet),
      (forColumns writeHeader col columns).run s = pure ((), writeHeaders col columns s) := by
  induction columns with
  | nil => exact fun _ _ => rfl
  | cons c columns ih => exact fun col s => ih (col + 1) _

theorem run_openColumns (columns : List FormColumn) :
    ∀ (col : UInt32) (s : Sheet),
      (forColumns openColumn col columns).run s = pure ((), openColumns col columns s) := by
  induction columns with
  | nil => exact fun _ _ => rfl
  | cons c columns ih =>
      intro col s
      rw [openColumns, ← ih]
      -- a column without a rule is only opened
      show (do openColumn col c; forColumns openColumn (col + 1) columns : StateM Sheet Unit).run s
        = _
      rw [openColumn]
      cases validation? col c <;> rfl

/-- The calls, one after the other, make the form. -/
theorem run_writeForm (columns : List FormColumn) (s : Sheet) :
    (writeForm columns).run s = ((), decorated columns s) := by
  have hheaders := run_writeHeaders columns 1 (s.rename formName)
  have hcolumns := run_openColumns columns 1 (writeHeaders 1 columns (s.rename formName))
  simp only [writeForm, StateT.run_bind, StateT.run_modify, pure_bind, hheaders, hcolumns]
  rfl

theorem run_decorate (columns : List ColumnInfo) (s : Sheet) :
    (decorate columns).run.run s = match formColumns columns with
      | .error fault => (.error fault.toFailure, s)
      | .ok formed => (.ok (), decorated formed s) := by
  rw [decorate]
  cases formColumns columns with
  | error fault => rfl
  | ok formed =>
      show ((.ok () : Except Failure Unit), ((writeForm formed).run s).2) = _
      rw [run_writeForm]

/-- **DECORATION IS ALL OR NOTHING.**  Either the metadata has a first fault, which is reported, and
    the sheet is as it was; or the sheet is the form of the metadata. -/
theorem decorate_allOrNothing (columns : List ColumnInfo) (s : Sheet) :
    (∃ fault failure, FirstFault columns fault ∧ fault.Reports failure
        ∧ entryForm columns s = .error failure
        ∧ (decorate columns).run.run s = (.error failure, s))
      ∨ ∃ form, FormOf columns s form ∧ entryForm columns s = .ok form
        ∧ (decorate columns).run.run s = (.ok (), form) := by
  have hrun := run_decorate columns s
  rcases formColumns_cases columns with ⟨formed, hformed, hne, hall⟩ | ⟨fault, hfault, hfirst⟩
  · rw [hformed] at hrun
    refine Or.inr ⟨decorated formed s, formOf_decorated hne hall s, ?_, hrun⟩
    rw [entryForm, hformed]
  · rw [hfault] at hrun
    refine Or.inl ⟨fault, fault.toFailure, hfirst, fault.reports_toFailure, ?_, hrun⟩
    rw [entryForm, hfault]

example : (decorate [{ name := " ", dataType := "int" }]).run.run { name := "Old" }
    = (.error (.invalid "Column name at index 0 cannot be empty."), { name := "Old" }) := by rfl

end Sheet

end Gridbase
