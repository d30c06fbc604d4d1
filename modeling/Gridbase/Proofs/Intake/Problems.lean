import Gridbase.Proofs.Intake.Shape
import Gridbase.Proofs.Intake.Typing
import Mathlib.Data.List.Forall2

/-! # The problems of an intake

    A report is the only thing that decides whether a dataset may be written, so
    what it says about a sheet has to be complete.  The log is described here from
    the sheet and the columns alone (`problemLog`): the repeated headers, the
    unknown ones, the missing columns, and then cell by cell what was refused and
    what was filled in.

    * `Problem.Says`: the words for a problem, with the headers, columns, rows and
      texts that it is about.
    * `select_repeated`, `select_unknown`: the two lists that the selection notes.
    * `readCell_problems`: the problems with one cell.
    * `run_problems_eq`: the log of a whole intake.
    * `problemLog_eq_nil_iff`: when there is nothing to report. -/

namespace Gridbase

/-! ## What is said of a problem -/

/-- The words for a cell that cannot be read.  Each of them names the column, the row
    and the text of the cell. -/
inductive CellFault.Says (p : CellPlace) : CellFault → String → Prop
  | notInteger : Says p .notInteger
      ("Expected integer for column '" ++ p.column ++ "' at row " ++ toString p.row
        ++ ", got '" ++ p.text ++ "'.")
  | notDecimal (precision scale : Option UInt8) : Says p (.notDecimal precision scale)
      ("Expected decimal with precision " ++ precision.elim "" (fun n => toString n.toNat)
        ++ " and scale " ++ scale.elim "" (fun n => toString n.toNat)
        ++ " for column '" ++ p.column ++ "' at row " ++ toString p.row
        ++ ", got '" ++ p.text ++ "'.")
  | notBoolean : Says p .notBoolean
      ("Expected boolean for column '" ++ p.column ++ "' at row " ++ toString p.row
        ++ ", got '" ++ p.text ++ "'.")
  | tooLong (limit : UInt32) : Says p (.tooLong limit)
      ("String length exceeds " ++ toString limit.toNat ++ " for column '" ++ p.column
        ++ "' at row " ++ toString p.row ++ ", got '" ++ p.text ++ "'.")
  | notDate : Says p .notDate
      ("Expected datetime for column '" ++ p.column ++ "' at row " ++ toString p.row
        ++ ", got '" ++ p.text ++ "'.")
  | badSerial : Says p .badSerial
      ("Invalid spreadsheet serial date '" ++ p.text ++ "' for column '" ++ p.column
        ++ "' at row " ++ toString p.row ++ ".")
  | dateOutOfRange : Says p .dateOutOfRange
      ("Date '" ++ p.text ++ "' for column '" ++ p.column ++ "' at row " ++ toString p.row
        ++ " is outside the supported range (1753-01-01 to 9999-12-31).")

/-- The words for a problem.  Headers that fit no column are told together, and so are columns
    without a header; a cell is told by its header, its row and its text. -/
inductive Problem.Says : Problem → String → Prop
  | duplicateHeader (header : String) (position : Nat) :
      Says (.duplicateHeader header position)
        ("Duplicate header '" ++ header ++ "' at column " ++ toString position
          ++ ". Ignoring repeated column.")
  | invalidHeaders (headers : List String) : Says (.invalidHeaders headers)
      ("Invalid headers found: " ++ ", ".intercalate headers ++ ". Ignoring invalid columns.")
  | missingColumns (names : List String) : Says (.missingColumns names)
      ("Missing required columns: " ++ ", ".intercalate names ++ ".")
  | rejectedCell (place : CellPlace) {fault : CellFault} {text : String}
      (h : fault.Says place text) : Says (.rejectedCell place fault) text
  | unsupportedType (dataType header : String) (row : Nat) :
      Says (.unsupportedType dataType header row)
        ("Unsupported data type '" ++ dataType ++ "' for column '" ++ header ++ "' at row "
          ++ toString row ++ ".")
  | missingValue (header : String) (row : Nat) : Says (.missingValue header row)
      ("Value for non-nullable column '" ++ header ++ "' at row " ++ toString row
        ++ " cannot be null.")
  | noRows : Says .noRows "No valid data rows found in the grid."
  | unevenColumns (message : String) : Says (.unevenColumns message) message

section

variable {p : CellPlace} {lead whole : String} (h : whole = lead ++ "for column '")
include h

/-- The words behind a place. -/
theorem CellPlace.append_position (tail : String) :
    whole ++ p.column ++ "' at row " ++ toString p.row ++ tail = lead ++ p.position ++ tail := by
  have hposition : p.position = "for column '" ++ p.column ++ "' at row " ++ toString p.row := rfl
  rw [h, hposition]
  simp only [String.append_assoc]

/-- The words behind a place and the text that was found there. -/
theorem CellPlace.append_found :
    whole ++ p.column ++ "' at row " ++ toString p.row ++ ", got '" ++ p.text ++ "'."
      = lead ++ p.found := by
  rw [append_position h, found]
  simp only [String.append_assoc]

end

/-- The message for a cell has the words for it.  The message is assembled from pieces,
    so the two are compared character by character. -/
theorem CellFault.says_message (p : CellPlace) (fault : CellFault) :
    fault.Says p (fault.message p) := by
  have hstated (n : Option UInt8) : n.elim "" (fun n => toString n.toNat) = statedText n := by
    cases n <;> rfl
  have hblank (s : String) : s ++ " for column '" = s ++ " " ++ "for column '" := by
    rw [String.append_assoc]
    rfl
  have hquoted (s : String) : s ++ "' for column '" = s ++ "' " ++ "for column '" := by
    rw [String.append_assoc]
    rfl
  -- the words of each fault joined with those for its place
  cases fault with
  | notInteger =>
      have hsays := Says.notInteger (p := p)
      have hlead : "Expected integer for column '" = "Expected integer " ++ "for column '" := rfl
      rw [CellPlace.append_found hlead] at hsays
      exact hsays
  | notDecimal precision scale =>
      have hsays := Says.notDecimal (p := p) precision scale
      rw [hstated, hstated, CellPlace.append_found (hblank _)] at hsays
      exact hsays
  | notBoolean =>
      have hsays := Says.notBoolean (p := p)
      have hlead : "Expected boolean for column '" = "Expected boolean " ++ "for column '" := rfl
      rw [CellPlace.append_found hlead] at hsays
      exact hsays
  | tooLong limit =>
      have hsays := Says.tooLong (p := p) limit
      rw [CellPlace.append_found (hblank _)] at hsays
      exact hsays
  | notDate =>
      have hsays := Says.notDate (p := p)
      have hlead : "Expected datetime for column '" = "Expected datetime " ++ "for column '" := rfl
      rw [CellPlace.append_found hlead] at hsays
      exact hsays
  | badSerial =>
      have hsays := Says.badSerial (p := p)
      rw [CellPlace.append_position (hquoted _)] at hsays
      exact hsays
  | dateOutOfRange =>
      have hsays := Says.dateOutOfRange (p := p)
      rw [CellPlace.append_position (hquoted _)] at hsays
      exact hsays

/-- **A MESSAGE SAYS WHAT THE PROBLEM IS**, and where. -/
theorem Problem.says_message (problem : Problem) : problem.Says problem.message := by
  cases problem with
  | duplicateHeader header position => exact .duplicateHeader header position
  | invalidHeaders headers =>
      have hsays := Says.invalidHeaders headers
      rw [← Text.joinWith_eq_intercalate] at hsays
      exact hsays
  | missingColumns names =>
      have hsays := Says.missingColumns names
      rw [← Text.joinWith_eq_intercalate] at hsays
      exact hsays
  | rejectedCell place fault => exact .rejectedCell place (fault.says_message place)
  | unsupportedType dataType header row => exact .unsupportedType dataType header row
  | missingValue header row => exact .missingValue header row
  | noRows => exact .noRows
  | unevenColumns message => exact .unevenColumns message

namespace Intake

open Gridbase.Text

/-! ## Headers -/

/-- The place of the column that a header names.  Two headers name the same column
    exactly if they have the same place. -/
def place? (columns : List ColumnInfo) (h : Header) : Option Nat := (named? columns h).map Prod.snd

/-- The header names a column, and one of the headers before it names the same.  The
    spelling of the headers may differ. -/
def isRepeat (columns : List ColumnInfo) (before : List Header) (h : Header) : Bool :=
  (place? columns h).isSome && before.any fun e => place? columns e == place? columns h

/-- The headers that repeat an earlier one, in order. -/
def repeatedHeaders (columns : List ColumnInfo) (hs : List Header) : List Header :=
  (hs.zipIdx.filter fun h => isRepeat columns (hs.take h.2) h.1).map Prod.fst

/-- The headers that name no column, in order, as they stand in the sheet. -/
def unknownHeaders (columns : List ColumnInfo) (hs : List Header) : List Header :=
  hs.filter fun h => (place? columns h).isNone

/-- A selection uses the places that some headers name. -/
def Selection.UsesPlacesOf (columns : List ColumnInfo) (s : Selection) (hs : List Header) :
    Prop :=
  ∀ place, s.uses place = hs.any fun h => place? columns h == some place

/-- One more header is used, if it names a column at all. -/
theorem Selection.usesPlacesOf_add {columns : List ColumnInfo} {s : Selection}
    {before : List Header} (huses : s.UsesPlacesOf columns before) (h : Header) :
    (s.add columns h).UsesPlacesOf columns (before ++ [h]) := by
  intro place
  rw [List.any_append, List.any_cons, List.any_nil, Bool.or_false, ← huses place]
  cases hn : named? columns h with
  | none =>
      rw [Selection.add_unknown hn, place?, hn]
      exact (Bool.or_false _).symm
  | some chosen =>
      obtain ⟨info, found⟩ := chosen
      have hplace : place? columns h = some found := by rw [place?, hn]; rfl
      rw [hplace]
      -- a header for a column in use adds no place, another one adds its own
      by_cases hfound : s.uses found = true
      · rw [Selection.add_repeated hn hfound]
        show s.uses place = _
        by_cases heq : found = place
        · rw [← heq, hfound]
          rfl
        · simp [heq]
      · rw [Selection.add_new hn hfound, Selection.uses_append]
        simp

/-- From a selection on, the headers whose place is used already are noted as
    repeated. -/
theorem foldl_add_repeated (columns : List ColumnInfo) (hs : List Header) :
    ∀ (before : List Header) (s : Selection), s.UsesPlacesOf columns before →
      (hs.foldl (Selection.add columns) s).repeated
        = s.repeated ++ ((hs.zipIdx before.length).filter fun h =>
            isRepeat columns ((before ++ hs).take h.2) h.1).map Prod.fst := by
  -- `before` holds the headers that led to the selection
  induction hs with
  | nil => intro before s _; exact (List.append_nil _).symm
  | cons h hs ih =>
      intro before s huses
      have hnext := ih (before ++ [h]) (s.add columns h) (Selection.usesPlacesOf_add huses h)
      rw [List.length_append, List.length_singleton, ← List.append_cons] at hnext
      have htake : (before ++ h :: hs).take before.length = before := List.take_left' rfl
      rw [List.foldl_cons, hnext, List.zipIdx_cons, List.filter_cons, htake]
      cases hn : named? columns h with
      | none =>
          have hplace : place? columns h = none := by rw [place?, hn]; rfl
          rw [Selection.add_unknown hn, isRepeat, hplace]
          rfl
      | some chosen =>
          obtain ⟨info, found⟩ := chosen
          have hplace : place? columns h = some found := by rw [place?, hn]; rfl
          have hrepeat : isRepeat columns before h = s.uses found := by
            rw [isRepeat, hplace, huses found]
            rfl
          dsimp only
          rw [hrepeat]
          by_cases hfound : s.uses found = true
          · rw [Selection.add_repeated hn hfound, if_pos hfound, List.map_cons,
              List.append_assoc, List.singleton_append]
          · rw [Selection.add_new hn hfound, if_neg hfound]

/-- **THE REPEATED HEADERS** are noted in their order. -/
theorem select_repeated (columns : List ColumnInfo) (hs : List Header) :
    (select columns hs).repeated = repeatedHeaders columns hs :=
  foldl_add_repeated columns hs [] {} fun _ => rfl

/-- From a selection on, the headers without a column are noted as unknown.  The
    selection is left open, for the induction to go through it. -/
theorem foldl_add_unknown (columns : List ColumnInfo) (hs : List Header) :
    ∀ s : Selection, (hs.foldl (Selection.add columns) s).unknown
      = s.unknown ++ unknownHeaders columns hs := by
  -- induction on the headers, with the selection so far left open
  induction hs with
  | nil => intro s; exact (List.append_nil _).symm
  | cons h hs ih =>
      intro s
      rw [List.foldl_cons, ih, unknownHeaders, unknownHeaders, List.filter_cons]
      cases hn : named? columns h with
      | none =>
          rw [Selection.add_unknown hn, place?, hn, List.append_assoc]
          rfl
      | some chosen =>
          obtain ⟨info, found⟩ := chosen
          rw [place?, hn]
          by_cases hfound : s.uses found = true
          · rw [Selection.add_repeated hn hfound]
            rfl
          · rw [Selection.add_new hn hfound]
            rfl

/-- **THE UNKNOWN HEADERS** are noted in their order. -/
theorem select_unknown (columns : List ColumnInfo) (hs : List Header) :
    (select columns hs).unknown = unknownHeaders columns hs :=
  foldl_add_unknown columns hs {}

/-- The column needs a value that the database does not make. -/
def isRequired (c : ColumnInfo) : Bool := !c.isNullable && !c.isAutoIncrementing

/-- The columns that need a value and whose name no kept header chooses.  A generated
    column is never among them. -/
def missingColumns (columns : List ColumnInfo) (s : Sheet) : List String :=
  (columns.filter fun c =>
    isRequired c && !(keptHeaders columns s).any fun k => sameName k.info.name c.name).map
      ColumnInfo.name

/-- One problem that lists all names; none if there are no names.  So a sheet has at
    most one problem about unknown headers and one about missing columns. -/
def listed (problem : List String → Problem) (names : List String) : List Problem :=
  if names.isEmpty then [] else [problem names]

/-- The problems with the headers: every repeated one, all unknown ones together, and
    all missing columns together. -/
def headerLog (columns : List ColumnInfo) (s : Sheet) : List Problem :=
  (repeatedHeaders columns (headers s)).map (fun h => .duplicateHeader h.text h.position)
    ++ listed .invalidHeaders ((unknownHeaders columns (headers s)).map Header.text)
    ++ listed .missingColumns (missingColumns columns s)

/-- What the selection gives rise to is the log of the headers. -/
theorem headerProblems_eq (columns : List ColumnInfo) (s : Sheet) :
    headerProblems columns (select columns (headers s)) = headerLog columns s := by
  have hmissing : missing columns (select columns (headers s)) = missingColumns columns s := by
    rw [missing, missingColumns]
    refine congrArg (fun p => (columns.filter p).map ColumnInfo.name) (funext fun c => ?_)
    rw [Selection.has, select_kept]
    rfl
  have hempty (hs : List Header) : hs.isEmpty = (hs.map Header.text).isEmpty := by
    cases hs <;> rfl
  rw [headerProblems, select_repeated, select_unknown, hmissing, hempty]
  rfl

/-! ## Cells -/

/-- The problem with a text that is not blank and gives its column no value: the type
    of the column is unknown, or its reader refuses the text. -/
def rejection? (row : Nat) (k : Kept) (text : String) : Option Problem :=
  if allBlank text then none
  else
    match k.info.type with
    | .error _ => some (.unsupportedType k.info.dataType k.header.text row)
    | .ok t =>
        match Cell.read t k.info text with
        | .ok _ => none
        | .error fault => some (.rejectedCell ⟨k.header.text, row, text⟩ fault)

/-- The problems with a cell: its rejection, and then that a value is missing which its
    column needs. -/
def cellLog (row : Nat) (k : Kept) (text : String) : List Problem :=
  (rejection? row k text).toList
    ++ if (allBlank text || (rejection? row k text).isSome) && !k.info.isNullable then
        [.missingValue k.header.text row]
      else []

/-- A text that is not blank and gives its column no value: the type is unknown, or the
    text cannot be read in it. -/
def Rejected (k : Kept) (text : String) : Prop :=
  allBlank text = false
    ∧ ((∃ f, k.info.type = .error f)
      ∨ ∃ t fault, k.info.type = .ok t ∧ Cell.read t k.info text = .error fault)

/-- A text without a value in a column that needs one, so that a substitute is written. -/
def Substituted (k : Kept) (text : String) : Prop :=
  (allBlank text = true ∨ Rejected k text) ∧ k.info.isNullable = false

/-- The value of a text as its column reads it, or NULL for a blank in a column that may
    hold it. -/
inductive Faithful (k : Kept) (text : String) : Value → Prop
  | read {t : DataType} {v : Value} (written : allBlank text = false)
      (type : k.info.type = .ok t) (read : Cell.read t k.info text = .ok v) : Faithful k text v
  | absent (blank : allBlank text = true) (nullable : k.info.isNullable = true) :
      Faithful k text .null

/-- The four ways in which a text can meet its column. -/
theorem cell_cases (k : Kept) (text : String) :
    allBlank text = true
      ∨ (allBlank text = false ∧ DataType.parse? k.info.dataType = none)
      ∨ (∃ t fault, allBlank text = false ∧ DataType.parse? k.info.dataType = some t
          ∧ Cell.read t k.info text = .error fault)
      ∨ ∃ t v, allBlank text = false ∧ DataType.parse? k.info.dataType = some t
          ∧ Cell.read t k.info text = .ok v := by
  cases hblank : allBlank text with
  | true => exact Or.inl rfl
  | false =>
      cases htype : DataType.parse? k.info.dataType with
      | none => exact Or.inr (Or.inl ⟨rfl, rfl⟩)
      | some t =>
          cases hread : Cell.read t k.info text with
          | error fault => exact Or.inr (Or.inr (Or.inl ⟨t, fault, rfl, rfl, hread⟩))
          | ok v => exact Or.inr (Or.inr (Or.inr ⟨t, v, rfl, rfl, hread⟩))

/-- A value that fits a column is not NULL. -/
theorem isNull_of_fits {info : ColumnInfo} {t : DataType} {v : Value} (h : v.Fits info t) :
    v.isNull = false := by
  cases h <;> rfl

theorem rejection?_of_blank {text : String} (h : allBlank text = true) (row : Nat) (k : Kept) :
    rejection? row k text = none := by
  rw [rejection?, if_pos h]

theorem rejection?_of_unknown {text : String} (h : allBlank text = false) {k : Kept} {f : Failure}
    (htype : k.info.type = .error f) (row : Nat) :
    rejection? row k text = some (.unsupportedType k.info.dataType k.header.text row) := by
  rw [rejection?, h, htype]
  rfl

theorem rejection?_of_fault {text : String} (h : allBlank text = false) {k : Kept} {t : DataType}
    (htype : k.info.type = .ok t) {fault : CellFault}
    (hread : Cell.read t k.info text = .error fault) (row : Nat) :
    rejection? row k text = some (.rejectedCell ⟨k.header.text, row, text⟩ fault) := by
  rw [rejection?, h, htype]
  dsimp only
  rw [hread]
  rfl

theorem rejection?_of_read {text : String} {k : Kept} {t : DataType}
    (htype : k.info.type = .ok t) {v : Value} (hread : Cell.read t k.info text = .ok v)
    (row : Nat) : rejection? row k text = none := by
  rw [rejection?, htype]
  dsimp only
  rw [hread]
  exact ite_self none

/-- A text is rejected exactly if a rejection is noted. -/
theorem rejection?_isSome_iff (row : Nat) {k : Kept} {text : String} :
    (rejection? row k text).isSome = true ↔ Rejected k text := by
  rw [rejection?, Rejected]
  cases allBlank text with
  | true => simp
  | false =>
      cases k.info.type with
      | error f => simp
      | ok t => cases hread : Cell.read t k.info text <;> simp [hread]

/-- **THE PROBLEMS WITH A CELL** are those of its log. -/
theorem readCell_problems (row : Nat) (cells : List String) (k : Kept) :
    (readCell row cells k).2 = cellLog row k (textUnder cells k) := by
  rw [readCell_eq, cellLog]
  rcases cell_cases k (textUnder cells k) with hblank | ⟨hblank, htype⟩
    | ⟨t, fault, hblank, htype, hread⟩ | ⟨t, v, hblank, htype, hread⟩
  · rw [cellValue_of_blank hblank, rejection?_of_blank hblank, hblank]
    cases k.info.isNullable <;> rfl
  · rw [cellValue_of_unknown (by simp [hblank]) htype,
      rejection?_of_unknown hblank (type_of_parse?_none htype), hblank]
    cases k.info.isNullable <;> rfl
  · rw [cellValue_of_fault (by simp [hblank]) htype hread,
      rejection?_of_fault hblank (type_of_parse? htype) hread, hblank]
    cases k.info.isNullable <;> rfl
  · rw [cellValue_of_read (by simp [hblank]) htype hread,
      rejection?_of_read (type_of_parse? htype) hread, hblank,
      isNull_of_fits (Cell.fits_of_read hread)]
    rfl

/-- A cell that is neither rejected nor substituted holds the value of its text.  So
    nothing is changed silently: any other cell leaves a problem. -/
theorem readCell_faithful (row : Nat) (cells : List String) (k : Kept)
    (hrejected : ¬ Rejected k (textUnder cells k))
    (hsubstituted : ¬ Substituted k (textUnder cells k)) :
    Faithful k (textUnder cells k) (readCell row cells k).1 := by
  rw [readCell_eq]
  -- of the four ways to read a cell, the hypotheses leave a blank one and a value
  rcases cell_cases k (textUnder cells k) with hblank | ⟨hblank, htype⟩
    | ⟨t, fault, hblank, htype, hread⟩ | ⟨t, v, hblank, htype, hread⟩
  · have hnullable : k.info.isNullable = true := by
      cases hn : k.info.isNullable with
      | true => rfl
      | false => exact absurd ⟨Or.inl hblank, hn⟩ hsubstituted
    rw [cellValue_of_blank hblank, hnullable]
    exact .absent hblank hnullable
  · exact absurd ⟨hblank, Or.inl ⟨_, type_of_parse?_none htype⟩⟩ hrejected
  · exact absurd ⟨hblank, Or.inr ⟨t, fault, type_of_parse? htype, hread⟩⟩ hrejected
  · rw [cellValue_of_read (by simp [hblank]) htype hread]
    dsimp only
    rw [isNull_of_fits (Cell.fits_of_read hread)]
    exact .read hblank (type_of_parse? htype) hread

/-- Nothing is noted of a cell exactly if it is neither rejected nor substituted. -/
theorem cellLog_eq_nil_iff {row : Nat} {k : Kept} {text : String} :
    cellLog row k text = [] ↔ ¬ Rejected k text ∧ ¬ Substituted k text := by
  have hsome : ¬ Rejected k text ↔ rejection? row k text = none := by
    rw [← rejection?_isSome_iff row]
    simp
  rw [cellLog, List.append_eq_nil_iff, Option.toList_eq_nil_iff, ← hsome]
  refine and_congr_right fun hrejected => ?_
  rw [Substituted, hsome.mp hrejected]
  simp [hrejected]

/-! ## The log -/

/-- The problems with a sheet of which `n` data rows are read: those with the headers,
    and then row by row, and column by column in a row, those with the cells. -/
def problemLog (columns : List ColumnInfo) (s : Sheet) (n : Nat) : List Problem :=
  headerLog columns s ++ (List.range n).flatMap fun i =>
    (keptHeaders columns s).flatMap fun k => cellLog (i + 2) k (cellUnder s (i + 2) k)

/-- The rows that are read are the rows of the sheet from the second on. -/
theorem zipIdx_body (columns : List ColumnInfo) (s : Sheet) :
    (body columns s).zipIdx 2
      = (List.range (body columns s).length).map fun i => (s.rows[i + 1]?.getD [], i + 2) := by
  have hlead : body columns s <+: s.rows.drop 1 := List.takeWhile_prefix _
  refine List.ext_getElem (by simp) fun i hi _ => ?_
  rw [List.length_zipIdx] at hi
  have hrow : s.rows[i + 1]? = some (body columns s)[i] := by
    rw [hlead.getElem hi, List.getElem_drop, Nat.add_comm i 1]
    exact List.getElem?_eq_getElem _
  rw [List.getElem_zipIdx, List.getElem_map, List.getElem_range, hrow, Nat.add_comm 2 i]
  rfl

/-- The values under a header are those of its cells, one for each row that is read. -/
theorem rowValues_body (columns : List ColumnInfo) (s : Sheet) (k : Kept) :
    rowValues 2 (body columns s) k
      = (List.range (body columns s).length).map fun i =>
          (readCell (i + 2) (s.rows[i + 1]?.getD []) k).1 := by
  rw [rowValues, zipIdx_body, List.map_map]
  rfl

/-- The problems with the rows are those of their cells. -/
theorem rowProblems_body (columns : List ColumnInfo) (s : Sheet) :
    rowProblems 2 (body columns s) (keptHeaders columns s)
      = (List.range (body columns s).length).flatMap fun i =>
          (keptHeaders columns s).flatMap fun k => cellLog (i + 2) k (cellUnder s (i + 2) k) := by
  rw [rowProblems, zipIdx_body, List.flatMap_map]
  refine congrArg (fun f => (List.range _).flatMap f) (funext fun i => ?_)
  refine congrArg (fun f => (keptHeaders columns s).flatMap f) (funext fun k => ?_)
  rw [readCell_problems, textUnder_row]

/-- A report counts the rows that are read. -/
theorem rowCount_of_run {w : Watch} {s : Sheet} {columns : List ColumnInfo} {table : String}
    {r : Report} (h : run w s columns table = .ok r) :
    r.dataset.rowCount = (body columns s).length := by
  obtain ⟨hbody, -, hdataset, -⟩ := run_eq_ok h
  rw [hdataset]
  refine Dataset.rowCount_of_length ?_ fun c hc => length_of_mem_datasetOf hc
  -- the first row that is read has data under some kept header
  obtain ⟨k, hk, -⟩ := (body_ends columns s).1 0 (List.length_pos_iff.mpr hbody)
  exact List.ne_nil_of_mem (List.mem_map.mpr ⟨k, hk, rfl⟩)

/-- **THE LOG OF AN INTAKE** is complete, and nothing else is in it.  The problems of
    the headers come first, and then those of the cells, row by row. -/
theorem run_problems_eq {w : Watch} {s : Sheet} {columns : List ColumnInfo} {table : String}
    {r : Report} (h : run w s columns table = .ok r) :
    r.problems = problemLog columns s r.dataset.rowCount := by
  obtain ⟨-, -, -, hproblems⟩ := run_eq_ok h
  rw [hproblems, headerProblems_eq, rowProblems_body, rowCount_of_run h]
  rfl

/-! ## Clean reports -/

/-- Every header names a column of its own, no column that needs a value lacks a
    header, and no cell of the `n` data rows is rejected or substituted. -/
structure Clean (columns : List ColumnInfo) (s : Sheet) (n : Nat) : Prop where
  known : ∀ h ∈ headers s, ∃ place, place? columns h = some place
  different : (headers s).Pairwise fun a b => place? columns a ≠ place? columns b
  complete : ∀ c ∈ columns, isRequired c = true →
    ∃ k ∈ keptHeaders columns s, sameName k.info.name c.name = true
  accepted : ∀ i < n, ∀ k ∈ keptHeaders columns s,
    ¬ Rejected k (cellUnder s (i + 2) k) ∧ ¬ Substituted k (cellUnder s (i + 2) k)

theorem unknownHeaders_eq_nil_iff {columns : List ColumnInfo} {hs : List Header} :
    unknownHeaders columns hs = [] ↔ ∀ h ∈ hs, ∃ place, place? columns h = some place := by
  rw [unknownHeaders, List.filter_eq_nil_iff]
  refine forall₂_congr fun h _ => ?_
  cases place? columns h <;> simp

/-- Where all headers are known, none is repeated exactly if they name different
    places. -/
theorem repeatedHeaders_eq_nil_iff {columns : List ColumnInfo} {hs : List Header}
    (hknown : ∀ h ∈ hs, ∃ place, place? columns h = some place) :
    repeatedHeaders columns hs = []
      ↔ hs.Pairwise fun a b => place? columns a ≠ place? columns b := by
  have hsome : ∀ h ∈ hs, (place? columns h).isSome = true := by
    intro h hh
    obtain ⟨place, hplace⟩ := hknown h hh
    rw [hplace]
    rfl
  rw [repeatedHeaders, List.map_eq_nil_iff, List.filter_eq_nil_iff, List.pairwise_iff_getElem]
  constructor
  · -- two headers for one place would make the later one a repeat
    intro hnone i j hi hj hij heq
    refine hnone (hs[j], j) (by simp [List.mem_zipIdx_iff_getElem?]) ?_
    rw [isRepeat, hsome _ (List.getElem_mem hj), Bool.true_and, List.any_eq_true]
    refine ⟨hs[i], List.mem_take_iff_getElem.mpr ⟨i, by omega, rfl⟩, ?_⟩
    rw [heq]
    exact beq_self_eq_true _
  · rintro hpair ⟨h, j⟩ hmem hrepeat
    have hat : hs[j]? = some h := List.mem_zipIdx_iff_getElem?.mp hmem
    obtain ⟨hj, rfl⟩ := List.getElem?_eq_some_iff.mp hat
    rw [isRepeat, Bool.and_eq_true, List.any_eq_true] at hrepeat
    obtain ⟨-, e, he, hsame⟩ := hrepeat
    obtain ⟨i, hi, rfl⟩ := List.mem_take_iff_getElem.mp he
    exact hpair i j (by omega) hj (by omega) (beq_iff_eq.mp hsame)

theorem missingColumns_eq_nil_iff {columns : List ColumnInfo} {s : Sheet} :
    missingColumns columns s = []
      ↔ ∀ c ∈ columns, isRequired c = true →
        ∃ k ∈ keptHeaders columns s, sameName k.info.name c.name = true := by
  rw [missingColumns, List.map_eq_nil_iff, List.filter_eq_nil_iff]
  refine forall₂_congr fun c _ => ?_
  simp

theorem listed_eq_nil_iff {problem : List String → Problem} {names : List String} :
    listed problem names = [] ↔ names = [] := by
  cases names <;> simp [listed]

/-- **NOTHING IS REPORTED** of a sheet exactly if it is clean.  Each of the four
    conditions answers for one kind of problem. -/
theorem problemLog_eq_nil_iff {columns : List ColumnInfo} {s : Sheet} {n : Nat} :
    problemLog columns s n = [] ↔ Clean columns s n := by
  have hcells : ((List.range n).flatMap fun i => (keptHeaders columns s).flatMap fun k =>
        cellLog (i + 2) k (cellUnder s (i + 2) k)) = []
      ↔ ∀ i < n, ∀ k ∈ keptHeaders columns s,
        ¬ Rejected k (cellUnder s (i + 2) k) ∧ ¬ Substituted k (cellUnder s (i + 2) k) := by
    simp only [List.flatMap_eq_nil_iff, List.mem_range, cellLog_eq_nil_iff]
  rw [problemLog, List.append_eq_nil_iff, hcells, headerLog, List.append_eq_nil_iff,
    List.append_eq_nil_iff, List.map_eq_nil_iff, listed_eq_nil_iff, List.map_eq_nil_iff,
    listed_eq_nil_iff, unknownHeaders_eq_nil_iff, missingColumns_eq_nil_iff]
  constructor
  · rintro ⟨⟨⟨hrepeated, hknown⟩, hcomplete⟩, haccepted⟩
    exact ⟨hknown, (repeatedHeaders_eq_nil_iff hknown).mp hrepeated, hcomplete, haccepted⟩
  · intro h
    exact ⟨⟨⟨(repeatedHeaders_eq_nil_iff h.known).mpr h.different, h.known⟩, h.complete⟩,
      h.accepted⟩

/-- A column of a dataset holds, row by row, what its cells say.  It has a value for
    each of the rows and no others. -/
structure ColumnFaithful (s : Sheet) (n : Nat) (k : Kept) (c : DataColumn) : Prop where
  name : c.name = k.info.name
  length : c.values.length = n
  faithful : ∀ i v, c.values[i]? = some v → Faithful k (cellUnder s (i + 2) k) v

/-- The values under a header are faithful to cells that are neither rejected nor
    substituted. -/
theorem columnFaithful_of_accepted {columns : List ColumnInfo} {s : Sheet} {k : Kept}
    (h : ∀ i < (body columns s).length,
      ¬ Rejected k (cellUnder s (i + 2) k) ∧ ¬ Substituted k (cellUnder s (i + 2) k)) :
    ColumnFaithful s (body columns s).length k
      ⟨k.info.name, rowValues 2 (body columns s) k⟩ := by
  refine ⟨rfl, length_rowValues .., ?_⟩
  intro i v hv
  rw [rowValues_body, List.getElem?_map, Option.map_eq_some_iff] at hv
  obtain ⟨j, hj, rfl⟩ := hv
  obtain ⟨hlt, hat⟩ := List.getElem?_eq_some_iff.mp hj
  rw [List.length_range] at hlt
  rw [List.getElem_range] at hat
  subst hat
  obtain ⟨hrejected, hsubstituted⟩ := h i hlt
  rw [← textUnder_row s (i + 1) k] at hrejected hsubstituted ⊢
  exact readCell_faithful (i + 2) _ k hrejected hsubstituted

/-- **THE PROBLEM LOG IS COMPLETE, AND A CLEAN REPORT IS FAITHFUL**: the problems are
    those of the log, and the messages are the words for them in its order; a report is
    clean exactly if the sheet is; and then every column of the dataset holds what its
    cells say. -/
theorem run_problems_faithful (w : Watch) (s : Sheet) (columns : List ColumnInfo)
    (table : String) (r : Report) (h : run w s columns table = .ok r) :
    r.problems = problemLog columns s r.dataset.rowCount
      ∧ r.messages = (problemLog columns s r.dataset.rowCount).map Problem.message
      ∧ List.Forall₂ Problem.Says (problemLog columns s r.dataset.rowCount) r.messages
      ∧ (r.isClean = true ↔ Clean columns s r.dataset.rowCount)
      ∧ (r.isClean = true → List.Forall₂ (ColumnFaithful s r.dataset.rowCount)
          (keptHeaders columns s) r.dataset.columns) := by
  have hproblems := run_problems_eq h
  have hmessages : r.messages
      = (problemLog columns s r.dataset.rowCount).map Problem.message := by
    rw [Report.messages, hproblems]
  have hclean : r.isClean = true ↔ Clean columns s r.dataset.rowCount := by
    rw [Report.isClean, List.isEmpty_iff, hproblems, problemLog_eq_nil_iff]
  refine ⟨hproblems, hmessages, ?_, hclean, ?_⟩
  · rw [hmessages, List.forall₂_map_right_iff, List.forall₂_same]
    exact fun problem _ => problem.says_message
  · intro hr
    -- a clean report accepts every cell, and then each value is faithful
    have haccepted := (hclean.mp hr).accepted
    obtain ⟨-, -, hdataset, -⟩ := run_eq_ok h
    rw [rowCount_of_run h] at haccepted ⊢
    rw [hdataset, datasetOf, List.forall₂_map_right_iff, List.forall₂_same]
    intro k hk
    exact columnFaithful_of_accepted fun i hi => haccepted i hi k hk

/-- A sheet that fits its columns: a header in another case, a price that is missing
    where it may be, and no header for the key, which is generated. -/
def stockSheet : Sheet := Sheet.ofRows [["price", " Name "], ["2.5", "Nut"], [" ", "Bolt"]]

/-- The columns of the stock. -/
def stockColumns : List ColumnInfo := [
  { name := "Id", dataType := "Integer", isAutoIncrementing := true, isPrimaryKey := true },
  { name := "Name", dataType := "String" },
  { name := "Price", dataType := "Decimal", isNullable := true }]

/-- The price of a nut. -/
def nutPrice : Decimal where
  coefficient := 25
  scale := 1
  -- the instance that decides the bounds depends on what is imported
  coefficient_lt := Nat.le_of_ble_eq_true rfl
  scale_le := Nat.le_of_ble_eq_true rfl

/-- What is read of the stock: its columns are in the order of the sheet, and the second
    price is unknown. -/
def stockReport : Report where
  dataset := ⟨"Stock", [⟨"Price", [.decimal nutPrice, .null]⟩,
    ⟨"Name", [.text "Nut", .text "Bolt"]⟩]⟩
  problems := []

/-- The stock is clean and faithful; the log of the people has their problems.  The
    first is clean although one of its prices is blank, as that column is nullable. -/
theorem stockReport_faithful :
    run .never stockSheet stockColumns "Stock" = .ok stockReport
      ∧ Clean stockColumns stockSheet 2
      ∧ List.Forall₂ (ColumnFaithful stockSheet 2) (keptHeaders stockColumns stockSheet)
          stockReport.dataset.columns
      ∧ run .never peopleSheet peopleColumns "People" = .ok peopleReport
      ∧ peopleReport.problems = problemLog peopleColumns peopleSheet 2
      ∧ ¬ Clean peopleColumns peopleSheet 2 := by
  have hstock : run .never stockSheet stockColumns "Stock" = .ok stockReport := by
    rfl
  have hpeople : run .never peopleSheet peopleColumns "People" = .ok peopleReport := by
    rfl
  obtain ⟨-, -, -, hclean, hfaithful⟩ :=
    run_problems_faithful .never stockSheet stockColumns "Stock" _ hstock
  obtain ⟨hproblems, -, -, hunclean, -⟩ :=
    run_problems_faithful .never peopleSheet peopleColumns "People" _ hpeople
  exact ⟨hstock, hclean.mp rfl, hfaithful rfl, hpeople, hproblems,
    fun h => nomatch hunclean.mpr h⟩

end Intake

end Gridbase
