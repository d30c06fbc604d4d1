import Gridbase.Proofs.Schema.Declared
import Gridbase.Proofs.Text.Offset

/-! # Table definitions by byte offsets

    Table definitions can be read without lists of characters: by searches for byte offsets and
    by slices between them.  `Offsets` is such a reader.  It checks every slice, and it counts
    the depth of parentheses in a type of numbers that is given.

    Names and arguments are found without a count, and every slice for them exists
    (`between?_eq`, `splitName_eq`, `columnOfDeclared_ok`): its offsets come from a search in the
    text that is sliced, or lie behind a mark of one byte there. -/

namespace Gridbase

/-! ## Trimmed texts -/

namespace Text

/-- A text is blank or has a solid core. -/
theorem blank_or_core (cs : List Char) : Blank cs
    ∨ ∃ pre core post, cs = pre ++ core ++ post ∧ Blank pre ∧ Blank post ∧ Solid core := by
  have hnot {part : List Char} (h : Lacks (!isBlank ·) part) : Blank part :=
    fun c hc => by simpa using h c hc
  rcases lacks_or_first (!isBlank ·) cs with hlacks | ⟨pre, c, rest, rfl, hpre, hc⟩
  · exact Or.inl (hnot hlacks)
  · rcases lacks_or_last (!isBlank ·) (c :: rest) with hlacks | ⟨init, d, post, hrest, hpost, hd⟩
    · exact absurd ((hlacks c (List.mem_cons_self ..)).symm.trans hc) Bool.false_ne_true
    · have hsolid : Solid (init ++ [d]) := by
        refine ⟨?_, init, d, rfl, by simpa using hd⟩
        cases init with
        | nil => exact ⟨d, [], rfl, by simpa using hd⟩
        | cons e init =>
            obtain ⟨rfl, -⟩ := List.cons.inj hrest
            exact ⟨c, init ++ [d], rfl, by simpa using hc⟩
      exact Or.inr ⟨pre, init ++ [d], post, by simp [hrest], hnot hpre, hnot hpost, hsolid⟩

/-- What is trimmed is empty or solid, and a part of the text. -/
theorem trim_cases (cs : List Char) :
    (trim cs = [] ∨ Solid (trim cs)) ∧ (trim cs).length ≤ cs.length := by
  rcases blank_or_core cs with hblank | ⟨pre, core, post, rfl, hpre, hpost, hcore⟩
  · have hstart : trimStart cs = [] := List.dropWhile_eq_nil_iff.mpr hblank
    rw [trim, hstart]
    exact ⟨Or.inl rfl, Nat.zero_le _⟩
  · rw [trim_padded hpre hpost hcore]
    refine ⟨Or.inr hcore, ?_⟩
    rw [List.length_append, List.length_append]
    omega

/-- Trimming once is enough. -/
theorem trim_trim (cs : List Char) : trim (trim cs) = trim cs := by
  rcases (trim_cases cs).1 with hempty | hsolid
  · rw [hempty]
    rfl
  · exact trim_solid hsolid

end Text

namespace Schema

open Gridbase.Text
open String (utf8Len)

/-! ## The reader -/

namespace Offsets

variable (D : Type) [DecidableEq D] [OfNat D 0] [OfNat D 1] [Add D] [Sub D]

/-- The text between the first opening and the last closing parenthesis.  There is none
    if either is missing, or if they stand the other way round. -/
def between? (cs : List Char) : Except BadSlice (Option (List Char)) :=
  match findOffset (· == '(') cs, lastOffset (· == ')') cs with
  | some opening, some closing =>
      if closing ≤ opening then return none
      else return some (← slice (opening + 1) closing cs)
  | _, _ => return none

variable {D} in
/-- The pieces of a body from the piece on that begins at `start`, over the characters that are
    left. -/
def splitFrom (body : List Char) : D → Nat → List (Nat × Char) → Except BadSlice (List (List Char))
  | _, start, [] => return [← sliceFrom start body]
  | count, start, (offset, c) :: rest => do
      if c = '(' then splitFrom body (count + 1) start rest
      else if c = ')' then splitFrom body (count - 1) start rest
      else if c = ',' ∧ count = 0 then
        let piece ← slice start offset body
        return piece :: (← splitFrom body count (offset + 1) rest)
      else splitFrom body count start rest

/-- Cuts a body at the commas where the count is zero.  The count is of the type that is
    given, and starts at zero. -/
def splitTopLevel (body : List Char) : Except BadSlice (List (List Char)) :=
  splitFrom body (0 : D) 0 (charOffsets 0 body)

/-- A name up to the first blank.  The quotes that it may have are taken off all the
    same. -/
def splitBareName (cs : List Char) : Except BadSlice (List Char × List Char) :=
  match findOffset isBlank cs with
  | some blank => return (unquote (← slice 0 blank cs), ← sliceFrom blank cs)
  | none => return (unquote cs, [])

/-- The name at the start of a piece and what follows it.  A quoted name ends at its
    closing mark, and one that is not closed is read as a bare one. -/
def splitName (cs : List Char) : Except BadSlice (List Char × List Char) :=
  match cs.head?.bind closingMark? with
  | none => splitBareName cs
  | some closing => do
      match findOffset (· == closing) (← sliceFrom 1 cs) with
      | some stop => return (← slice 1 (stop + 1) cs, ← sliceFrom (stop + 2) cs)
      | none => splitBareName cs

/-- The names listed in parentheses, without their quotes.  Empty ones are dropped. -/
def listedNames (cs : List Char) : Except BadSlice (List (List Char)) := do
  match ← between? cs with
  | none => return []
  | some inner =>
      return ((splitAt ',' inner).map fun n => unquote (trim n)).filter (!·.isEmpty)

variable {D} in
/-- The type at the start of a text, over the characters that are left.  It ends at the
    parenthesis that closes the first one, or at a blank outside of parentheses that is
    not followed by one. -/
def typeFrom (cs : List Char) : D → List (Nat × Char) → Except BadSlice (List Char)
  | _, [] => return cs
  | count, (offset, c) :: rest => do
      if c = '(' then typeFrom cs (count + 1) rest
      else if c = ')' then
        if count - 1 = 0 then slice 0 (offset + 1) cs
        else typeFrom cs (count - 1) rest
      else if isBlank c ∧ count = 0 then
        if startsWith ['('] (trimStart (← sliceFrom offset cs)) then typeFrom cs count rest
        else slice 0 offset cs
      else typeFrom cs count rest

/-- The declared type at the start of a text. -/
def declaredType (text : List Char) : Except BadSlice (List Char) :=
  typeFrom (trimStart text) (0 : D) (charOffsets 0 (trimStart text))

/-- The column that a declared type gives.  Without a parenthesis there are no
    arguments, and the whole text is the type. -/
def columnOfDeclared (name declaredText : List Char) : Except BadSlice ColumnInfo := do
  let declared := trim declaredText
  match findOffset (· == '(') declared with
  | none => return ofArguments name (upper declared) ((splitAt ',' []).map argument?)
  | some opening =>
      let base ← slice 0 opening declared
      let args ← sliceFrom (opening + 1) declared
      return ofArguments name (upper (trim base))
        ((splitAt ',' (trim (args.reverse.dropWhile (· == ')')).reverse)).map argument?)

/-- The column that a piece defines.  Its flags are looked for in all that follows the
    name, in upper case. -/
def columnOfPiece (piece : List Char) : Except BadSlice ColumnInfo := do
  let (name, rest) ← splitName piece
  let column ← columnOfDeclared name (← declaredType D rest)
  let flags := upper rest
  let isKey := occursIn "PRIMARY KEY".toList flags
  return { column with
    isPrimaryKey := isKey
    isNullable := !occursIn "NOT NULL".toList flags && !isKey
    isAutoIncrementing := occursIn "AUTOINCREMENT".toList flags }

/-- Reads one piece: a column, a constraint that makes columns the key, or something
    else. -/
def readPiece (text : List Char) : Except BadSlice Piece := do
  let piece := trim text
  if piece.isEmpty then return .other
  else if isConstraint piece then
    if occursIn "PRIMARY KEY".toList (upper piece) then return .keys (← listedNames piece)
    else return .other
  else return .column (← columnOfPiece D piece)

/-- The columns of a statement.  Every slice on the way is checked, so the result says
    whether all of them exist. -/
def readColumns (sql : String) : Except BadSlice (List ColumnInfo) := do
  match ← between? sql.toList with
  | none => return []
  | some body => return columnsOfPieces (← (← splitTopLevel D body).mapM (readPiece D))

end Offsets

/-! ## The body -/

/-- A body stands between the first opening and the last closing parenthesis; there is none if no
    parenthesis closes after one that opens. -/
theorem between?_cases (cs : List Char) :
    (Schema.between? cs = none ∧ Offsets.between? cs = .ok none)
      ∨ ∃ before inner after, cs = before ++ '(' :: (inner ++ ')' :: after)
        ∧ Schema.between? cs = some inner ∧ Offsets.between? cs = .ok (some inner) := by
  rcases lacks_or_first (· == '(') cs with hlacks | ⟨before, c, body, rfl, hbefore, hc⟩
  · refine Or.inl ⟨?_, ?_⟩
    · have hnone : cs.dropWhile (· != '(') = [] := hlacks.dropWhile
      rw [Schema.between?, hnone]
    · rw [Offsets.between?, findOffset_of_lacks hlacks]
      rfl
  · obtain rfl : c = '(' := beq_iff_eq.mp hc
    have hopening := findOffset_append hbefore hc body
    rcases lacks_or_last (· == ')') body with hlacks | ⟨inner, c, after, rfl, hafter, hc⟩
    · refine Or.inl ⟨?_, ?_⟩
      · have hbody : (before ++ '(' :: body).dropWhile (· != '(') = '(' :: body :=
          hbefore.dropWhile_append hc body
        have hreverse : Lacks (· == ')') body.reverse :=
          fun d hd => hlacks d (List.mem_reverse.mp hd)
        have hnone : body.reverse.dropWhile (· != ')') = [] := hreverse.dropWhile
        rw [Schema.between?, hbody]
        dsimp only
        rw [hnone]
      · have htail : Lacks (· == ')') ('(' :: body) := List.forall_mem_cons.mpr ⟨rfl, hlacks⟩
        rw [Offsets.between?, hopening, lastOffset_append_of_lacks htail]
        cases hclosing : lastOffset (· == ')') before with
        | none => rfl
        | some closing => exact if_pos (Nat.le_of_lt (lastOffset_lt hclosing))
    · obtain rfl : c = ')' := beq_iff_eq.mp hc
      refine Or.inr ⟨before, inner, after, rfl, ?_, ?_⟩
      · exact between?_parens (lacks_iff_not_mem.mp hbefore) (lacks_iff_not_mem.mp hafter)
      · have htext : before ++ '(' :: (inner ++ ')' :: after)
            = (before ++ '(' :: inner) ++ ')' :: after := by simp
        have hclosing := lastOffset_append hafter hc (before ++ '(' :: inner)
        rw [← htext] at hclosing
        have hbyte : '('.utf8Size = 1 := rfl
        have horder : ¬ utf8Len (before ++ '(' :: inner) ≤ utf8Len before := by
          simp [hbyte]
        have hslice : slice (utf8Len before + 1) (utf8Len (before ++ '(' :: inner))
            (before ++ '(' :: (inner ++ ')' :: after)) = .ok inner :=
          slice_eq_ok_iff.mpr ⟨before ++ ['('], ')' :: after, by simp, by simp [hbyte], by simp⟩
        rw [Offsets.between?, hopening, hclosing]
        dsimp only
        rw [if_neg horder, hslice]
        rfl

theorem between?_eq (cs : List Char) : Offsets.between? cs = .ok (Schema.between? cs) := by
  rcases between?_cases cs with ⟨hnone, hok⟩ | ⟨_, inner, _, -, hsome, hok⟩
  · rw [hok, hnone]
  · rw [hok, hsome]

theorem listedNames_eq (cs : List Char) : Offsets.listedNames cs = .ok (Schema.listedNames cs) := by
  rw [Offsets.listedNames, between?_eq, Schema.listedNames]
  cases Schema.between? cs <;> rfl

/-! ## Names -/

theorem splitBareName_eq (cs : List Char) :
    Offsets.splitBareName cs = .ok (Schema.splitBareName cs) := by
  rcases lacks_or_first isBlank cs with hlacks | ⟨before, c, after, rfl, hbefore, hc⟩
  · rw [Offsets.splitBareName, findOffset_of_lacks hlacks, Schema.splitBareName, hlacks.takeWhile,
      hlacks.dropWhile]
    rfl
  · rw [Offsets.splitBareName, findOffset_append hbefore hc, Schema.splitBareName,
      hbefore.takeWhile_append hc, hbefore.dropWhile_append hc]
    dsimp only
    rw [slice_zero_append, sliceFrom_append]
    rfl

/-- Marks around names have one byte. -/
theorem utf8Size_of_closingMark? {c closing : Char} (h : closingMark? c = some closing) :
    c.utf8Size = 1 ∧ closing.utf8Size = 1 := by
  unfold closingMark? at h
  split at h <;> cases h <;> exact ⟨rfl, rfl⟩

/-- Names are found without a count, and every slice for them exists. -/
theorem splitName_eq (cs : List Char) : Offsets.splitName cs = .ok (Schema.splitName cs) := by
  cases cs with
  | nil => rfl
  | cons c rest =>
      rw [Offsets.splitName, List.head?_cons, Option.bind_some]
      cases hmark : closingMark? c with
      | none =>
          rw [Schema.splitName, hmark]
          exact splitBareName_eq (c :: rest)
      | some closing =>
          obtain ⟨hc, hclosing⟩ := utf8Size_of_closingMark? hmark
          have hrest : sliceFrom 1 (c :: rest) = .ok rest :=
            slice_eq_ok_iff.mpr ⟨[c], [], by simp, by simp [hc], by simp⟩
          rw [Schema.splitName, hmark]
          dsimp only
          rw [hrest]
          rcases lacks_or_first (· == closing) rest with hlacks | ⟨name, d, after, rfl, hname, hd⟩
          · have hnone : rest.dropWhile (· != closing) = [] := hlacks.dropWhile
            show (match findOffset (· == closing) rest with
              | some stop => _
              | none => Offsets.splitBareName (c :: rest)) = _
            rw [findOffset_of_lacks hlacks, hnone]
            exact splitBareName_eq (c :: rest)
          · obtain rfl : d = closing := beq_iff_eq.mp hd
            have hdrop : (name ++ d :: after).dropWhile (· != d) = d :: after :=
              hname.dropWhile_append hd after
            have htake : (name ++ d :: after).takeWhile (· != d) = name :=
              hname.takeWhile_append hd after
            have hslice : slice 1 (utf8Len name + 1) (c :: (name ++ d :: after)) = .ok name :=
              slice_eq_ok_iff.mpr ⟨[c], d :: after, by simp, by simp [hc], by simp [hc]⟩
            have hafter : sliceFrom (utf8Len name + 2) (c :: (name ++ d :: after)) = .ok after :=
              slice_eq_ok_iff.mpr ⟨c :: (name ++ [d]), [], by simp, by simp [hc, hclosing],
                by simp⟩
            show (match findOffset (· == d) (name ++ d :: after) with
              | some stop => _
              | none => Offsets.splitBareName (c :: (name ++ d :: after))) = _
            rw [findOffset_append hname hd, hdrop, htake]
            dsimp only
            rw [hslice, hafter]
            rfl

/-! ## Arguments -/

theorem columnOfDeclared_ok (name declared : List Char) :
    Offsets.columnOfDeclared name declared = .ok (Schema.columnOfDeclared name declared) := by
  rw [Schema.columnOfDeclared_eq, Offsets.columnOfDeclared]
  rcases lacks_or_first (· == '(') (trim declared) with hlacks | ⟨base, c, args, htext, hbase, hc⟩
  · have htake : (trim declared).takeWhile (· != '(') = trim declared := hlacks.takeWhile
    have hdrop : (trim declared).dropWhile (· != '(') = [] := hlacks.dropWhile
    rw [findOffset_of_lacks hlacks, htake, trim_trim, argumentText, hdrop]
    rfl
  · obtain rfl : c = '(' := beq_iff_eq.mp hc
    have hbyte : '('.utf8Size = 1 := rfl
    have htake : (base ++ '(' :: args).takeWhile (· != '(') = base := hbase.takeWhile_append hc args
    have hdrop : (base ++ '(' :: args).dropWhile (· != '(') = '(' :: args :=
      hbase.dropWhile_append hc args
    have hargs : sliceFrom (utf8Len base + 1) (base ++ '(' :: args) = .ok args :=
      slice_eq_ok_iff.mpr ⟨base ++ ['('], [], by simp, by simp [hbyte], by simp⟩
    rw [htext, findOffset_append hbase hc, htake, argumentText, hdrop]
    dsimp only
    rw [slice_zero_append, hargs]
    rfl

end Schema

end Gridbase
