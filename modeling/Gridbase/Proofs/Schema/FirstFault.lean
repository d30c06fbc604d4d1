import Gridbase.Proofs.Schema.Validity
import Gridbase.Proofs.Text.Lead
import Gridbase.Schema.Ddl

/-! # The first fault of a design

    A design that is not valid breaks one rule or several, and validation names one of them.

    * What it is to BREAK a rule is said for each rule alone, whatever else is broken
      (`BreaksTable`, `BreaksColumn`).
    * Rules have an order (`DesignFault.rule`).  The FIRST fault is a broken rule on the table, or
      else one of the first column that breaks any, or else that on the key (`FirstFault`); there
      is one at most (`FirstFault.unique`).
    * The search goes through the columns once, with the names that it has met.  It can be taken up
      at any column, if those before it keep the rules (`searched_append`, by induction on the
      columns that are left).  So what is found is the first fault (`firstFault_of_fault?`).
    * A fault is told in words that hold the name it is about (`DesignFault.Says`).  No two faults
      have the same words (`DesignFault.message_injective`), so that a message says which rule is
      broken, and by which name. -/

namespace Gridbase

open Gridbase.Text

/-- The place of a rule among the rules that are checked.  Of two rules that are broken,
    the one with the lower place is reported. -/
def DesignFault.rule : DesignFault → Nat
  | .blankTable => 0
  | .invalidTable _ => 1
  | .noColumns => 2
  | .blankColumn => 3
  | .invalidColumn _ => 4
  | .duplicateColumn _ => 5
  | .generatedNotInteger _ => 6
  | .severalKeys => 7

/-! ## What is said of a fault -/

namespace DesignFault

/-- The words for a fault.  They name what is at fault where there is more than one
    thing to name. -/
inductive Says : DesignFault → String → Prop
  | blankTable : Says blankTable "Table name cannot be empty."
  | invalidTable (name : String) : Says (invalidTable name)
      ("Table name '" ++ name ++ "' is not a valid SQL identifier.")
  | noColumns : Says noColumns "Table must have at least one column."
  | blankColumn : Says blankColumn "Column name cannot be empty."
  | invalidColumn (name : String) : Says (invalidColumn name)
      ("Column name '" ++ name ++ "' is not a valid SQL identifier.")
  | duplicateColumn (name : String) : Says (duplicateColumn name)
      ("Duplicate column name found: '" ++ name ++ "'.")
  | generatedNotInteger (name : String) : Says (generatedNotInteger name)
      ("Auto-incrementing column '" ++ name ++ "' must be of type 'Integer'.")
  | severalKeys : Says severalKeys "A table can have at most one primary key."

/-- The message has the words for the fault, and no others. -/
theorem says_iff {fault : DesignFault} {text : String} :
    fault.Says text ↔ text = fault.message := by
  constructor
  · intro h
    cases h <;> rfl
  · rintro rfl
    cases fault <;> constructor

/-- How the messages begin, by the place of the rule: the fixed text in front of the name, or as
    much of the message as tells it from the others. -/
def leads : List String :=
  ["Table name c", "Table name '", "Table must", "Column name c", "Column name '",
    "Duplicate column name found: '", "Auto-incrementing column '", "A table"]

theorem begins_message (fault : DesignFault) :
    Begins fault.message (leads.getD fault.rule "") := by
  cases fault with
  | blankTable | noColumns | blankColumn | severalKeys => exact ⟨_, rfl⟩
  | invalidTable | invalidColumn | duplicateColumn | generatedNotInteger =>
      exact begins_append₂ ..

theorem rule_lt (fault : DesignFault) : fault.rule < leads.length := by
  cases fault <;> exact Nat.le_of_ble_eq_true rfl

/-- The message tells the rule. -/
theorem rule_eq_of_message {a b : DesignFault} (h : a.message = b.message) : a.rule = b.rule :=
  eq_of_leads (by decide +kernel) a.rule_lt b.rule_lt (begins_message a) (h ▸ begins_message b)

/-- **FAULTS ARE TOLD APART** by their messages.  How one begins tells the rule, and what
    is quoted can be told from the words around it. -/
theorem message_injective : Function.Injective message := by
  intro a b h
  have hrule := rule_eq_of_message h
  -- faults of one rule differ in the name only
  cases a <;> cases b <;> first | rfl | exact congrArg _ (eq_of_between h) | cases hrule

end DesignFault

namespace TableDesign

/-! ## Broken rules -/

/-- A rule on the table that a design breaks: a blank name breaks two of them, and the
    first is reported. -/
inductive BreaksTable (d : Dialect) (t : TableDesign) : DesignFault → Prop
  | blank (blank : allBlank t.tableName = true) : BreaksTable d t .blankTable
  | invalid (invalid : d.isValidName t.tableName = false) :
      BreaksTable d t (.invalidTable t.tableName)
  | noColumns (empty : t.columns = []) : BreaksTable d t .noColumns

/-- A rule that a column breaks among the columns that stand before it.  Only the rule
    on doubled names looks at those. -/
inductive BreaksColumn (d : Dialect) (before : List ColumnDesign) (c : ColumnDesign) :
    DesignFault → Prop
  | blank (blank : allBlank c.name = true) : BreaksColumn d before c .blankColumn
  | invalid (invalid : d.isValidName c.name = false) :
      BreaksColumn d before c (.invalidColumn c.name)
  | duplicate {b : ColumnDesign} (mem : b ∈ before) (same : sameName b.name c.name = true) :
      BreaksColumn d before c (.duplicateColumn c.name)
  | generated (generated : c.isAutoIncrementing = true) (type : c.dataType ≠ .integer) :
      BreaksColumn d before c (.generatedNotInteger c.name)

/-- The first of some broken rules: it is broken, and none that comes before it is. -/
structure FirstRule (broken : DesignFault → Prop) (fault : DesignFault) : Prop where
  breaks : broken fault
  first : ∀ other, broken other → fault.rule ≤ other.rule

/-- The column at a position breaks no rule, among those that stand before it. -/
def KeepsRules (d : Dialect) (columns : List ColumnDesign) (i : Nat) : Prop :=
  ∀ c fault, columns[i]? = some c → ¬ BreaksColumn d (columns.take i) c fault

/-- The first fault of a design: of the table, of the first column that has one, or of
    the key.  A later column is not looked at while an earlier one has a fault, and the
    keys are counted last. -/
inductive FirstFault (d : Dialect) (t : TableDesign) : DesignFault → Prop
  | table {fault : DesignFault} (first : FirstRule (BreaksTable d t) fault) : FirstFault d t fault
  | column {fault : DesignFault} {i : Nat} {c : ColumnDesign}
      (table : ∀ other, ¬ BreaksTable d t other) (before : ∀ j < i, KeepsRules d t.columns j)
      (column : t.columns[i]? = some c)
      (first : FirstRule (BreaksColumn d (t.columns.take i) c) fault) : FirstFault d t fault
  | keys (table : ∀ other, ¬ BreaksTable d t other) (columns : ∀ j, KeepsRules d t.columns j)
      (several : 1 < t.columns.countP (isKeyColumn d)) : FirstFault d t .severalKeys

/-! ## There is one first fault -/

theorem BreaksTable.eq_of_rule {d : Dialect} {t : TableDesign} {a b : DesignFault}
    (ha : BreaksTable d t a) (hb : BreaksTable d t b) (h : a.rule = b.rule) : a = b := by
  cases ha <;> cases hb <;> first | rfl | cases h

theorem BreaksColumn.eq_of_rule {d : Dialect} {before : List ColumnDesign} {c : ColumnDesign}
    {a b : DesignFault} (ha : BreaksColumn d before c a) (hb : BreaksColumn d before c b)
    (h : a.rule = b.rule) : a = b := by
  cases ha <;> cases hb <;> first | rfl | cases h

theorem FirstRule.rule_eq {broken : DesignFault → Prop} {a b : DesignFault}
    (ha : FirstRule broken a) (hb : FirstRule broken b) : a.rule = b.rule :=
  Nat.le_antisymm (ha.first b hb.breaks) (hb.first a ha.breaks)

/-- A column that keeps the rules comes before the first that breaks one. -/
theorem le_of_keepsRules {d : Dialect} {columns : List ColumnDesign} {i j : Nat}
    {c : ColumnDesign} {fault : DesignFault} (hbefore : ∀ k < i, KeepsRules d columns k)
    (hc : columns[j]? = some c) (hbreaks : BreaksColumn d (columns.take j) c fault) : i ≤ j :=
  Nat.not_lt.mp fun hlt => hbefore j hlt c fault hc hbreaks

/-- **THERE IS ONE FIRST FAULT** at most.  The three ways to have one exclude each
    other, and within a table or a column the places of the rules differ. -/
theorem FirstFault.unique {d : Dialect} {t : TableDesign} {a b : DesignFault}
    (ha : FirstFault d t a) (hb : FirstFault d t b) : a = b := by
  -- the stages exclude each other, and within a stage the first rule is unique
  cases ha with
  | table hfirst =>
      cases hb with
      | table hfirst' =>
          exact hfirst.breaks.eq_of_rule hfirst'.breaks (hfirst.rule_eq hfirst')
      | column htable | keys htable => exact absurd hfirst.breaks (htable a)
  | column htable hbefore hcolumn hfirst =>
      cases hb with
      | table hfirst' => exact absurd hfirst'.breaks (htable b)
      | column _ hbefore' hcolumn' hfirst' =>
          obtain rfl := Nat.le_antisymm (le_of_keepsRules hbefore hcolumn' hfirst'.breaks)
            (le_of_keepsRules hbefore' hcolumn hfirst.breaks)
          obtain rfl := Option.some.inj (hcolumn.symm.trans hcolumn')
          exact hfirst.breaks.eq_of_rule hfirst'.breaks (hfirst.rule_eq hfirst')
      | keys _ hcolumns => exact absurd hfirst.breaks (hcolumns _ _ _ hcolumn)
  | keys htable hcolumns =>
      cases hb with
      | table hfirst' => exact absurd hfirst'.breaks (htable b)
      | column _ _ hcolumn' hfirst' => exact absurd hfirst'.breaks (hcolumns _ _ _ hcolumn')
      | keys => rfl

/-! ## What the search finds -/

/-- The names before a column, as the search keeps them, have the name of a column if one of the
    columns has it. -/
theorem any_names_iff {before : List ColumnDesign} {name : String} :
    (before.map ColumnDesign.name).reverse.any (sameName name) = true
      ↔ ∃ b ∈ before, sameName b.name name = true := by
  rw [List.any_reverse, List.any_map, List.any_eq_true]
  simp only [Function.comp_apply, sameName_comm name]

/-- What is found of a column is the first rule that it breaks.  The search keeps the
    names before the column in reverse, which makes no difference to whether one of them
    is the same. -/
theorem firstRule_of_columnFault? {d : Dialect} {before : List ColumnDesign} {c : ColumnDesign}
    {fault : DesignFault}
    (h : columnFault? d (before.map ColumnDesign.name).reverse c = some fault) :
    FirstRule (BreaksColumn d before c) fault := by
  rw [columnFault?] at h
  -- the rules in their order: what comes behind a rule has a greater number
  split at h
  case isTrue hblank =>
    cases h
    refine ⟨.blank hblank, fun other hother => ?_⟩
    cases hother <;> exact Nat.le_of_ble_eq_true rfl
  case isFalse hnamed =>
    split at h
    case isTrue hinvalid =>
      cases h
      refine ⟨.invalid (by simpa using hinvalid), fun other hother => ?_⟩
      cases hother with
      | blank hblank => exact absurd hblank hnamed
      | _ => exact Nat.le_of_ble_eq_true rfl
    case isFalse hvalid =>
      split at h
      case isTrue hused =>
        cases h
        obtain ⟨b, hb, hsame⟩ := any_names_iff.mp hused
        refine ⟨.duplicate hb hsame, fun other hother => ?_⟩
        cases hother with
        | blank hblank => exact absurd hblank hnamed
        | invalid hinvalid => simp [hinvalid] at hvalid
        | _ => exact Nat.le_of_ble_eq_true rfl
      case isFalse hnew =>
        split at h
        case isTrue hgenerated =>
          cases h
          rw [Bool.and_eq_true, bne_iff_ne] at hgenerated
          refine ⟨.generated hgenerated.1 hgenerated.2, fun other hother => ?_⟩
          cases hother with
          | blank hblank => exact absurd hblank hnamed
          | invalid hinvalid => simp [hinvalid] at hvalid
          | duplicate hb hsame => exact absurd (any_names_iff.mpr ⟨_, hb, hsame⟩) hnew
          | generated => exact Nat.le_refl _
        case isFalse => cases h

/-- A column of which nothing is found breaks no rule. -/
theorem not_breaksColumn_of_columnFault? {d : Dialect} {before : List ColumnDesign}
    {c : ColumnDesign} (h : columnFault? d (before.map ColumnDesign.name).reverse c = none)
    (fault : DesignFault) : ¬ BreaksColumn d before c fault := by
  obtain ⟨hvalid, hnew, hgenerated⟩ := columnFault?_eq_none_iff.mp h
  intro hbreaks
  cases hbreaks with
  | blank hblank =>
      rw [Identifier.allBlank_of_isValid hvalid] at hblank
      cases hblank
  | invalid hinvalid => exact absurd hvalid (by simp [hinvalid])
  | duplicate hb hsame =>
      rw [any_names_iff.mpr ⟨_, hb, hsame⟩] at hnew
      cases hnew
  | generated hauto htype => exact htype (hgenerated hauto)

section

variable {d : Dialect} {before rest : List ColumnDesign} {c : ColumnDesign}

/-- One more column keeps the rules. -/
theorem keepsRules_concat (hbefore : ∀ j < before.length, KeepsRules d (before ++ c :: rest) j)
    (h : columnFault? d (before.map ColumnDesign.name).reverse c = none) :
    ∀ j < (before ++ [c]).length, KeepsRules d (before ++ c :: rest) j := by
  intro j hj
  rw [List.length_append, List.length_singleton] at hj
  rcases Nat.lt_or_eq_of_le (Nat.le_of_lt_succ hj) with hlt | rfl
  · exact hbefore j hlt
  · intro b fault hb hbreaks
    rw [List.getElem?_append_right (Nat.le_refl _), Nat.sub_self] at hb
    obtain rfl := Option.some.inj hb
    rw [List.take_left] at hbreaks
    exact not_breaksColumn_of_columnFault? h fault hbreaks

/-- What a search through columns is to find: nothing if every column keeps the rules, and else the
    first rule that the first column breaks which breaks any. -/
inductive Searched (d : Dialect) (columns : List ColumnDesign) : Option DesignFault → Prop
  | nothing (kept : ∀ j, KeepsRules d columns j) : Searched d columns none
  | found {fault : DesignFault} {i : Nat} {c : ColumnDesign}
      (before : ∀ j < i, KeepsRules d columns j) (column : columns[i]? = some c)
      (first : FirstRule (BreaksColumn d (columns.take i) c) fault) :
      Searched d columns (some fault)

/-- **THE SEARCH GOES ON** from any column, if those before it keep the rules. -/
theorem searched_append :
    ∀ before : List ColumnDesign, (∀ j < before.length, KeepsRules d (before ++ rest) j) →
      Searched d (before ++ rest)
        (columnsFault? d (before.map ColumnDesign.name).reverse rest) := by
  induction rest with
  | nil =>
      intro before hbefore
      refine .nothing fun j => ?_
      rcases Nat.lt_or_ge j before.length with hlt | hge
      · exact hbefore j hlt
      · intro b fault hb
        rw [List.append_nil, List.getElem?_eq_none hge] at hb
        cases hb
  | cons c rest ih =>
      intro before hbefore
      rw [columnsFault?]
      cases hc : columnFault? d (before.map ColumnDesign.name).reverse c with
      | some fault =>
          have hcolumn : (before ++ c :: rest)[before.length]? = some c := by
            rw [List.getElem?_append_right (Nat.le_refl _), Nat.sub_self]
            rfl
          refine .found hbefore hcolumn ?_
          rw [List.take_left]
          exact firstRule_of_columnFault? hc
      | none =>
          -- the column moves to those that keep the rules
          have hnext := keepsRules_concat hbefore hc
          rw [List.append_cons before c rest] at hnext ⊢
          have hrest := ih (before ++ [c]) hnext
          rw [List.map_append, List.reverse_append] at hrest
          exact hrest

theorem searched (d : Dialect) (columns : List ColumnDesign) :
    Searched d columns (columnsFault? d [] columns) :=
  searched_append [] fun j hj => absurd hj (Nat.not_lt_zero j)

end

/-! ## What validation reports -/

variable {d : Dialect} {t : TableDesign} {fault : DesignFault}

/-- A table with a valid name and columns breaks no rule on tables. -/
theorem not_breaksTable (hname : d.isValidName t.tableName = true) (hcolumns : t.columns ≠ [])
    (other : DesignFault) : ¬ BreaksTable d t other := by
  intro hbreaks
  cases hbreaks with
  | blank hblank =>
      rw [Identifier.allBlank_of_isValid hname] at hblank
      cases hblank
  | invalid hinvalid => exact absurd hname (by simp [hinvalid])
  | noColumns hempty => exact hcolumns hempty

/-- **THE SEARCH FINDS THE FIRST FAULT.**  It ends at the first rule that it finds
    broken, and looks for them in the order of their places. -/
theorem firstFault_of_fault? (h : fault? d t = some fault) : FirstFault d t fault := by
  rw [fault?] at h
  split at h
  case isTrue hblank =>
    cases h
    exact .table ⟨.blank hblank, fun other _ => Nat.zero_le _⟩
  case isFalse hnamed =>
    split at h
    case isTrue hinvalid =>
      cases h
      refine .table ⟨.invalid (by simpa using hinvalid), fun other hother => ?_⟩
      cases hother with
      | blank hblank => exact absurd hblank hnamed
      | _ => exact Nat.le_of_ble_eq_true rfl
    case isFalse hvalid =>
      rw [Bool.not_eq_true, Bool.not_eq_false'] at hvalid
      split at h
      case isTrue hempty =>
        cases h
        refine .table ⟨.noColumns (List.isEmpty_iff.mp hempty), fun other hother => ?_⟩
        cases hother with
        | blank hblank => exact absurd hblank hnamed
        | invalid hinvalid => exact absurd hvalid (by simp [hinvalid])
        | noColumns => exact Nat.le_refl _
      case isFalse hsome =>
        -- the table itself breaks no rule, so that its columns are searched
        have htable := not_breaksTable hvalid fun hempty => hsome (List.isEmpty_iff.mpr hempty)
        have hsearch := searched d t.columns
        generalize columnsFault? d [] t.columns = found at h hsearch
        cases hsearch with
        | found hbefore hcolumn hfirst =>
            obtain rfl := Option.some.inj h
            exact .column htable hbefore hcolumn hfirst
        | nothing hkept =>
            simp only at h
            split at h
            case isTrue hseveral =>
              cases h
              exact .keys htable hkept hseveral
            case isFalse => cases h

/-- A valid design has no first fault. -/
theorem Valid.not_firstFault (h : Valid d t) : ¬ FirstFault d t fault := by
  have htable := not_breaksTable h.table h.nonempty
  have hnone : columnsFault? d [] t.columns = none :=
    (columnsFault?_eq_none_iff t.columns []).mpr
      ⟨h.names, fun _ _ => rfl, h.distinct, h.generated⟩
  have hcolumns : ∀ j, KeepsRules d t.columns j := by
    have hsearch := searched d t.columns
    rw [hnone] at hsearch
    cases hsearch with
    | nothing hkept => exact hkept
  intro hfirst
  cases hfirst with
  | table hfirst => exact htable _ hfirst.breaks
  | column _ _ hc hfirst => exact hcolumns _ _ _ hc hfirst.breaks
  | keys _ _ hseveral => exact absurd h.oneKey (Nat.not_le.mpr hseveral)

/-- **A FAULT IS FOUND** exactly if it is the first.  The search finds a first fault,
    and there is only one. -/
theorem fault?_eq_some_iff : fault? d t = some fault ↔ FirstFault d t fault := by
  refine ⟨firstFault_of_fault?, fun hfirst => ?_⟩
  cases hfound : fault? d t with
  | none => exact absurd hfirst (fault?_eq_none_iff.mp hfound).not_firstFault
  | some found => rw [(firstFault_of_fault? hfound).unique hfirst]

theorem compile_eq (d : Dialect) (t : TableDesign) :
    t.compile d = (t.validate d).map fun _ => t.createText d := by
  rw [compile]
  cases t.validate d <;> rfl

/-- **VALIDATION REPORTS THE FIRST FAULT** and nothing else: a design is accepted exactly if it is
    valid, and else refused with one message, the words for its first fault.  The words tell which
    fault it is.  A design is compiled exactly if it is accepted, and refused for the same
    reason. -/
theorem validate_reports_first (d : Dialect) (t : TableDesign) :
    (t.validate d = .ok () ↔ Valid d t)
      ∧ (∀ failure, t.validate d = .error failure
        ↔ ∃ fault text, FirstFault d t fault ∧ fault.Says text ∧ failure = .validation [text])
      ∧ (∀ (a b : DesignFault) (text : String), a.Says text → b.Says text → a = b)
      ∧ ∀ failure, t.compile d = .error failure ↔ t.validate d = .error failure := by
  refine ⟨validate_eq_ok_iff, fun failure => ?_, fun a b text ha hb => ?_, fun failure => ?_⟩
  · simp only [← fault?_eq_some_iff]
    rw [validate]
    cases fault? d t with
    | none =>
        constructor
        · intro h
          cases h
        · rintro ⟨_, _, h, _⟩
          cases h
    | some fault =>
        constructor
        · intro h
          exact ⟨fault, fault.message, rfl, DesignFault.says_iff.mpr rfl,
            (Except.error.inj h).symm⟩
        · rintro ⟨_, _, ⟨⟩, hsays, rfl⟩
          rw [DesignFault.says_iff.mp hsays]
          rfl
  · exact DesignFault.message_injective
      ((DesignFault.says_iff.mp ha).symm.trans (DesignFault.says_iff.mp hb))
  · rw [compile_eq]
    cases t.validate d with
    | ok _ =>
        constructor <;>
          · intro h
            cases h
    | error found =>
        constructor <;>
          · rintro ⟨⟩
            rfl

/-- The first column decides, though the second breaks a rule as well. -/
example : fault? .sqlServer
    { tableName := "t", columns := [
      { name := "9x", dataType := .string },
      { name := "y", dataType := .string, isAutoIncrementing := true }] }
    = some (.invalidColumn "9x") := by
  decide +kernel

end TableDesign
end Gridbase
