import Gridbase.Proofs.Sheet.Calls

/-! # The calls that make a form

    A form is what a list of calls makes of a sheet (`decorated_eq`): two for each header, one or two
    for each column, one for the name and one for the protection.  So it can be read off its calls,
    by what the last of them on each place writes: `last?_text?_formCalls` for the headers, and no
    call at all for the cells that are not headers (`last?_text?_of_other`).

    The columns of a sheet are counted with 32 bits.  Fewer columns than that have numbers of their
    own, beginning with 1; of more, the later ones write over the first (`number_ne`). -/

namespace Gridbase.Sheet

open Gridbase.Text

/-! ## The calls of a form -/

/-- The number of the column at an index, in words of 32 bits: from a certain index on
    they come again. -/
def number (i : Nat) : UInt32 := UInt32.ofNat (i + 1)

theorem number_eq_zero_iff {i : Nat} : number i = 0 ↔ (i + 1) % 2 ^ 32 = 0 := by
  rw [number, ← UInt32.toNat_inj, UInt32.toNat_ofNat']
  rfl

theorem toNat_number {i : Nat} (h : i + 1 < 2 ^ 32) : (number i).toNat = i + 1 :=
  UInt32.toNat_ofNat_of_lt' h

/-- Columns that are not too far from each other have different numbers. -/
theorem number_ne {i j : Nat} (hij : i < j) (hj : j < i + 2 ^ 32) : number j ≠ number i := by
  intro h
  rw [number, number, ← UInt32.toNat_inj, UInt32.toNat_ofNat', UInt32.toNat_ofNat'] at h
  omega

/-- The calls that write a header: its text, and the style of headers. -/
def headerCalls (col : UInt32) (c : FormColumn) : List Call :=
  [.setCell 1 col c.name, .setCellStyle 1 col headerStyle]

/-- The calls that open a column: the style of inputs, and a rule if the column has one.
    -/
def columnCalls (col : UInt32) (c : FormColumn) : List Call :=
  .setColumnStyle col inputStyle :: (validation? col c).toList.map .addValidation

/-- The calls for columns that are numbered from an index on. -/
def numberedCalls (f : UInt32 → FormColumn → List Call) (columns : List FormColumn)
    (k : Nat) : List Call :=
  (columns.zipIdx k).flatMap fun c => f (number c.2) c.1

/-- The calls that make a sheet a form: the name, all headers, all columns, and the
    protection at last. -/
def formCalls (columns : List FormColumn) : List Call :=
  .rename formName :: (numberedCalls headerCalls columns 0
    ++ (numberedCalls columnCalls columns 0 ++ [.protect formProtection]))

theorem numberedCalls_cons (f : UInt32 → FormColumn → List Call) (c : FormColumn)
    (columns : List FormColumn) (k : Nat) :
    numberedCalls f (c :: columns) k = f (number k) c ++ numberedCalls f columns (k + 1) := by
  rw [numberedCalls, List.zipIdx_cons, List.flatMap_cons]
  rfl

theorem numberedCalls_concat (f : UInt32 → FormColumn → List Call) (columns : List FormColumn)
    (c : FormColumn) :
    numberedCalls f (columns ++ [c]) 0
      = numberedCalls f columns 0 ++ f (number columns.length) c := by
  rw [numberedCalls, List.zipIdx_append, List.flatMap_append, Nat.zero_add, List.zipIdx_singleton,
    List.flatMap_singleton]
  rfl

theorem mem_numberedCalls {f : UInt32 → FormColumn → List Call} {columns : List FormColumn}
    {call : Call} :
    call ∈ numberedCalls f columns 0
      ↔ ∃ i c, columns[i]? = some c ∧ call ∈ f (number i) c := by
  rw [numberedCalls, List.mem_flatMap]
  constructor
  · rintro ⟨⟨c, i⟩, hc, hcall⟩
    exact ⟨i, c, List.mem_zipIdx_iff_getElem?.mp hc, hcall⟩
  · rintro ⟨i, c, hc, hcall⟩
    exact ⟨(c, i), List.mem_zipIdx_iff_getElem?.mpr hc, hcall⟩

theorem writeHeaders_eq (columns : List FormColumn) :
    ∀ (k : Nat) (s : Sheet),
      writeHeaders (number k) columns s = s.after (numberedCalls headerCalls columns k) := by
  induction columns with
  | nil => intro k s; rfl
  | cons c columns ih =>
      intro k s
      rw [number, writeHeaders_cons, numberedCalls_cons, after_append]
      exact ih (k + 1) _

theorem openColumns_eq (columns : List FormColumn) :
    ∀ (k : Nat) (s : Sheet),
      openColumns (number k) columns s = s.after (numberedCalls columnCalls columns k) := by
  induction columns with
  | nil => intro k s; rfl
  | cons c columns ih =>
      intro k s
      have hnext : number k + 1 = number (k + 1) := (UInt32.ofNat_add (k + 1) 1).symm
      rw [openColumns, numberedCalls_cons, after_append, hnext, ih (k + 1), columnCalls]
      cases validation? (number k) c <;> rfl

/-- **A FORM IS MADE BY CALLS.** -/
theorem decorated_eq (columns : List FormColumn) (s : Sheet) :
    decorated columns s = s.after (formCalls columns) := by
  have hheaders := writeHeaders_eq columns 0 (s.rename formName)
  have hcolumns := openColumns_eq columns 0 (writeHeaders 1 columns (s.rename formName))
  show (openColumns (number 0) columns (writeHeaders 1 columns (s.rename formName))).protect
    formProtection = ((s.rename formName).after _)
  rw [hcolumns, after_append, after_append]
  show ((writeHeaders (number 0) columns (s.rename formName)).after _).protect _ = _
  rw [hheaders]
  rfl

/-! ## What the calls write -/

section

variable {β : Type} {answer : Call → Option β} {b : β}

/-- The answer is the only one that is given. -/
theorem last?_eq_some {calls : List Call} (hsome : ∃ c ∈ calls, answer c = some b)
    (hall : ∀ c ∈ calls, ∀ b', answer c = some b' → b' = b) : last? answer calls = some b := by
  cases hlast : last? answer calls with
  | none =>
      obtain ⟨c, hc, hanswer⟩ := hsome
      rw [last?_eq_none_iff.mp hlast c hc] at hanswer
      exact nomatch hanswer
  | some b' =>
      obtain ⟨c, hc, hanswer⟩ := List.exists_of_findSome?_eq_some hlast
      rw [hall c (List.mem_reverse.mp hc) b' hanswer]

/-- The answer for a column, if those after it give none.  This is how a reading of the
    whole form comes down to one column. -/
theorem last?_numberedCalls {f : UInt32 → FormColumn → List Call} {columns : List FormColumn}
    {i : Nat} {c : FormColumn} (hc : columns[i]? = some c)
    (hself : last? answer (f (number i) c) = some b)
    (hlater : ∀ (j : Nat) (c' : FormColumn), i < j → columns[j]? = some c' →
      last? answer (f (number j) c') = none) :
    last? answer (numberedCalls f columns 0) = some b := by
  -- induction from the end, since the last call that answers is asked for
  induction columns using List.reverseRecOn with
  | nil => exact nomatch hc
  | append_singleton columns c' ih =>
      rw [numberedCalls_concat, last?_append]
      have hlast : (columns ++ [c'])[columns.length]? = some c' := List.getElem?_concat_length ..
      by_cases hi : i < columns.length
      · rw [hlater columns.length c' hi hlast]
        rw [List.getElem?_append_left hi] at hc
        refine ih hc fun j c'' hij hj => hlater j c'' hij ?_
        rw [List.getElem?_append_left (List.getElem?_eq_some_iff.mp hj).1]
        exact hj
      · have hbound := (List.getElem?_eq_some_iff.mp hc).1
        rw [List.length_append, List.length_singleton] at hbound
        obtain rfl : i = columns.length := by omega
        obtain rfl : c' = c := Option.some.inj (hlast.symm.trans hc)
        rw [hself]
        rfl

end

variable {columns : List FormColumn}

theorem mem_formCalls {call : Call} :
    call ∈ formCalls columns ↔ call = .rename formName
      ∨ (∃ i c, columns[i]? = some c ∧ call ∈ headerCalls (number i) c)
      ∨ (∃ i c, columns[i]? = some c ∧ call ∈ columnCalls (number i) c)
      ∨ call = .protect formProtection := by
  rw [formCalls, List.mem_cons, List.mem_append, List.mem_append, mem_numberedCalls,
    mem_numberedCalls, List.mem_singleton]

theorem mem_headerCalls {call : Call} {col : UInt32} {c : FormColumn} :
    call ∈ headerCalls col c
      ↔ call = .setCell 1 col c.name ∨ call = .setCellStyle 1 col headerStyle := by
  rw [headerCalls, List.mem_cons, List.mem_singleton]

theorem mem_columnCalls {call : Call} {col : UInt32} {c : FormColumn} :
    call ∈ columnCalls col c
      ↔ call = .setColumnStyle col inputStyle ∨ ∃ v, call = .addValidation v
          ∧ validation? col c = some v := by
  rw [columnCalls, List.mem_cons, List.mem_map]
  simp only [Option.mem_toList]
  refine or_congr_right ⟨?_, ?_⟩
  · rintro ⟨v, hv, rfl⟩
    exact ⟨v, rfl, hv⟩
  · rintro ⟨v, rfl, hv⟩
    exact ⟨v, hv, rfl⟩

/-- What holds of each kind of call holds of all calls of a form. -/
theorem forall_formCalls {P : Call → Prop} (hname : P (.rename formName))
    (htext : ∀ i c, columns[i]? = some c → P (.setCell 1 (number i) c.name))
    (hcell : ∀ i < columns.length, P (.setCellStyle 1 (number i) headerStyle))
    (hcolumn : ∀ i < columns.length, P (.setColumnStyle (number i) inputStyle))
    (hrule : ∀ v, P (.addValidation v)) (hprotect : P (.protect formProtection)) :
    ∀ call ∈ formCalls columns, P call := by
  intro call hcall
  rcases mem_formCalls.mp hcall with rfl | ⟨i, c, hc, hcall⟩ | ⟨i, c, hc, hcall⟩ | rfl
  · exact hname
  · rcases mem_headerCalls.mp hcall with rfl | rfl
    · exact htext i c hc
    · exact hcell i (List.getElem?_eq_some_iff.mp hc).1
  · rcases mem_columnCalls.mp hcall with rfl | ⟨v, rfl, -⟩
    · exact hcolumn i (List.getElem?_eq_some_iff.mp hc).1
    · exact hrule v
  · exact hprotect

/-- **A HEADER IS WRITTEN** by the last column of its number.  The bound keeps every
    later column from having the same number. -/
theorem last?_text?_formCalls {i : Nat} {c : FormColumn} (hc : columns[i]? = some c)
    (hfit : columns.length ≤ i + 2 ^ 32) :
    last? (Call.text? 1 (number i)) (formCalls columns) = some c.name := by
  have hheaders : last? (Call.text? 1 (number i)) (numberedCalls headerCalls columns 0)
      = some c.name := by
    refine last?_numberedCalls hc ?_ fun j c' hij hj => ?_
    · refine last?_eq_some ⟨_, mem_headerCalls.mpr (Or.inl rfl), if_pos ⟨rfl, rfl⟩⟩ ?_
      intro call hcall text htext
      rcases mem_headerCalls.mp hcall with rfl | rfl
      · rw [Call.text?, if_pos ⟨rfl, rfl⟩] at htext
        exact (Option.some.inj htext).symm
      · exact (Option.some_ne_none text htext.symm).elim
    · -- columns further right have other numbers, as long as numbers do not come round again
      have hother := number_ne hij
        (Nat.lt_of_lt_of_le (List.getElem?_eq_some_iff.mp hj).1 hfit)
      refine last?_eq_none_iff.mpr fun call hcall => ?_
      rcases mem_headerCalls.mp hcall with rfl | rfl
      · rw [Call.text?, if_neg fun h => hother h.2]
      · rfl
  have hcolumns : last? (Call.text? 1 (number i))
      (numberedCalls columnCalls columns 0 ++ [.protect formProtection]) = none := by
    refine last?_eq_none_iff.mpr fun call hcall => ?_
    rcases List.mem_append.mp hcall with hcall | hcall
    · obtain ⟨j, c', -, hcall⟩ := mem_numberedCalls.mp hcall
      rcases mem_columnCalls.mp hcall with rfl | ⟨v, rfl, -⟩ <;> rfl
    · rw [List.mem_singleton.mp hcall]
      rfl
  rw [formCalls, ← List.singleton_append, last?_append, last?_append, hcolumns, hheaders]
  rfl

/-- The cell of a header is styled as one, by whichever column of its number. -/
theorem last?_cellStyle?_formCalls {i : Nat} (hi : i < columns.length) :
    last? (Call.cellStyle? 1 (number i)) (formCalls columns) = some headerStyle := by
  refine last?_eq_some ⟨.setCellStyle 1 (number i) headerStyle, ?_, if_pos ⟨rfl, rfl⟩⟩ ?_
  · exact mem_formCalls.mpr (Or.inr (Or.inl ⟨i, columns[i], List.getElem?_eq_getElem hi,
      mem_headerCalls.mpr (Or.inr rfl)⟩))
  · exact forall_formCalls (fun _ h => nomatch h) (fun _ _ _ _ h => nomatch h)
      (fun _ _ _ h => (Option.some.inj (Option.ite_none_right_eq_some.mp h).2).symm)
      (fun _ _ _ h => nomatch h) (fun _ _ h => nomatch h) (fun _ h => nomatch h)

/-- A column of the form is open for input. -/
theorem last?_columnStyle?_formCalls {i : Nat} (hi : i < columns.length) :
    last? (Call.columnStyle? (number i)) (formCalls columns) = some inputStyle := by
  refine last?_eq_some ⟨.setColumnStyle (number i) inputStyle, ?_, if_pos rfl⟩ ?_
  · exact mem_formCalls.mpr (Or.inr (Or.inr (Or.inl ⟨i, columns[i], List.getElem?_eq_getElem hi,
      mem_columnCalls.mpr (Or.inl rfl)⟩)))
  · exact forall_formCalls (fun _ h => nomatch h) (fun _ _ _ _ h => nomatch h)
      (fun _ _ _ h => nomatch h)
      (fun _ _ _ h => (Option.some.inj (Option.ite_none_right_eq_some.mp h).2).symm)
      (fun _ _ h => nomatch h) (fun _ h => nomatch h)

/-- The sheet is named once. -/
theorem last?_name?_formCalls : last? Call.name? (formCalls columns) = some formName :=
  last?_eq_some ⟨_, mem_formCalls.mpr (Or.inl rfl), rfl⟩
    (forall_formCalls (fun _ h => (Option.some.inj h).symm) (fun _ _ _ _ h => nomatch h)
      (fun _ _ _ h => nomatch h) (fun _ _ _ h => nomatch h) (fun _ _ h => nomatch h)
      (fun _ h => nomatch h))

/-- The sheet is protected once. -/
theorem last?_protection?_formCalls :
    last? Call.protection? (formCalls columns) = some formProtection :=
  last?_eq_some ⟨_, mem_formCalls.mpr (Or.inr (Or.inr (Or.inr rfl))), rfl⟩
    (forall_formCalls (fun _ h => nomatch h) (fun _ _ _ _ h => nomatch h)
      (fun _ _ _ h => nomatch h) (fun _ _ _ h => nomatch h) (fun _ _ h => nomatch h)
      (fun _ h => (Option.some.inj h).symm))

/-- **NO OTHER CELL IS WRITTEN** than those of the headers. -/
theorem last?_text?_of_other {row col : UInt32}
    (hother : row = 1 → ∀ i < columns.length, number i ≠ col) :
    last? (Call.text? row col) (formCalls columns) = none :=
  last?_eq_none_iff.mpr (forall_formCalls rfl
    (fun i _ hc => if_neg fun h => hother h.1.symm i (List.getElem?_eq_some_iff.mp hc).1 h.2)
    (fun _ _ => rfl) (fun _ _ => rfl) (fun _ => rfl) rfl)

theorem last?_cellStyle?_of_other {row col : UInt32}
    (hother : row = 1 → ∀ i < columns.length, number i ≠ col) :
    last? (Call.cellStyle? row col) (formCalls columns) = none :=
  last?_eq_none_iff.mpr (forall_formCalls rfl (fun _ _ _ => rfl)
    (fun i hi => if_neg fun h => hother h.1.symm i hi h.2) (fun _ _ => rfl) (fun _ => rfl) rfl)

theorem last?_columnStyle?_of_other {col : UInt32}
    (hother : ∀ i < columns.length, number i ≠ col) :
    last? (Call.columnStyle? col) (formCalls columns) = none :=
  last?_eq_none_iff.mpr (forall_formCalls rfl (fun _ _ _ => rfl) (fun _ _ => rfl)
    (fun i hi => if_neg (hother i hi)) (fun _ => rfl) rfl)

/-- The rules of a form are those of its columns, in their order. -/
theorem validations_formCalls (columns : List FormColumn) :
    (formCalls columns).filterMap Call.validation?
      = columns.zipIdx.filterMap fun c => validation? (number c.2) c.1 := by
  have hheader (c : FormColumn × Nat) :
      (headerCalls (number c.2) c.1).filterMap Call.validation? = [] := rfl
  have hcolumn (c : FormColumn × Nat) :
      (columnCalls (number c.2) c.1).filterMap Call.validation?
        = (validation? (number c.2) c.1).toList := by
    rw [columnCalls]
    cases validation? (number c.2) c.1 <;> rfl
  show ((_ ++ (_ ++ [_])).filterMap Call.validation?) = _
  rw [List.filterMap_append, List.filterMap_append, numberedCalls, numberedCalls,
    List.filterMap_flatMap, List.filterMap_flatMap]
  simp only [hheader, hcolumn]
  rw [List.flatMap_eq_nil_iff.mpr fun _ _ => rfl, List.nil_append,
    ← List.filterMap_eq_flatMap_toList]
  exact List.append_nil _

end Gridbase.Sheet
