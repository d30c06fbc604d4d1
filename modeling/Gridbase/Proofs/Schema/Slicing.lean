import Gridbase.Proofs.Schema.Cuts
import Gridbase.Proofs.Schema.Offsets

/-! # No slice is out of bounds

    The reader by byte offsets takes every slice, whatever the text and whatever it counts in.
    Two loops go over the characters with a count.  Before each step the characters that were
    passed over are known as texts, and the offsets are their bytes: for the end of a type those
    seen (`typeFrom_eq`), for the pieces of a body those cut off and those of the current piece
    (`splitFrom_eq`).

    As long as the count shows the depth, the columns are those of the reader of characters
    (`readColumns_sliced`). -/

namespace Gridbase.Schema

open Gridbase.Text
open String (utf8Len)

variable (D : Type) [DecidableEq D] [OfNat D 0] [OfNat D 1] [Add D] [Sub D]

/-! ## Types -/

section Types

variable {D}

/-- The type at the start of a text, by characters: what the reader by offsets cuts off,
    for any count. -/
def typeText : D → List Char → List Char
  | _, [] => []
  | count, c :: cs =>
      if c = '(' then c :: typeText (count + 1) cs
      else if c = ')' then
        if count - 1 = 0 then [c] else c :: typeText (count - 1) cs
      else if isBlank c ∧ count = 0 then
        if startsWith ['('] (trimStart cs) then c :: typeText count cs else []
      else c :: typeText count cs

/-- The type is cut off where it ends, and every slice for it exists. -/
theorem typeFrom_eq (cs : List Char) :
    ∀ (seen : List Char) (count : D),
      Offsets.typeFrom (seen ++ cs) count (charOffsets (utf8Len seen) cs)
        = .ok (seen ++ typeText count cs) := by
  induction cs with
  | nil => exact fun seen count => rfl
  | cons c cs ih =>
      intro seen count
      -- a character that is passed over is the last one seen
      have hpass (next : D) : Offsets.typeFrom (seen ++ c :: cs) next
          (charOffsets (utf8Len (seen ++ [c])) cs) = .ok (seen ++ c :: typeText next cs) := by
        have h := ih (seen ++ [c]) next
        rwa [List.append_assoc, List.append_assoc] at h
      rw [charOffsets_cons, Offsets.typeFrom, typeText]
      split
      · exact hpass _
      · split
        · rename_i hclose
          subst hclose
          have hbyte : ')'.utf8Size = 1 := rfl
          have hslice : slice 0 (utf8Len seen + 1) (seen ++ ')' :: cs) = .ok (seen ++ [')']) :=
            slice_eq_ok_iff.mpr ⟨[], cs, by simp, rfl, by simp [hbyte]⟩
          split
          · exact hslice
          · exact hpass _
        · split
          · rename_i hblank
            have htrim : trimStart (c :: cs) = trimStart cs :=
              List.dropWhile_cons_of_pos hblank.1
            rw [sliceFrom_append]
            show (if startsWith ['('] (trimStart (c :: cs)) then _ else _) = _
            rw [htrim]
            split
            · exact hpass _
            · rw [slice_zero_append, List.append_nil]
          · exact hpass _

theorem declaredType_eq (text : List Char) :
    Offsets.declaredType D text = .ok (typeText (0 : D) (trimStart text)) :=
  typeFrom_eq (trimStart text) [] 0

/-- A count that shows the depth finds the end of the type where the depth does.  The
    depth never leaves the bound, as it changes by one for each character. -/
theorem Shows.typeText_eq {shown : Int → D} {bound : Nat} (h : Shows shown bound)
    (cs : List Char) :
    ∀ n : Int, n.natAbs + cs.length < bound →
      typeText (shown n) cs = Schema.declaredType n cs := by
  induction cs with
  | nil => exact fun _ _ => rfl
  | cons c cs ih =>
      intro n hn
      have hlength : (c :: cs).length = cs.length + 1 := rfl
      have hzero : shown n = 0 ↔ n = 0 := h.zero_iff n (by omega)
      have hend : shown (n - 1) = 0 ↔ n - 1 = 0 := h.zero_iff (n - 1) (by omega)
      have hup := ih (n + 1) (by omega)
      have hdown := ih (n - 1) (by omega)
      have hsame := ih n (by omega)
      -- the two scanners ask for the marks in another order, so each mark is looked at by itself
      rw [typeText, ← h.up, ← h.down, hup, hdown, hsame, Schema.declaredType, depthAfter]
      by_cases hopen : c = '('
      · subst hopen
        have hblank : isBlank '(' = false := rfl
        simp [hblank]
      · by_cases hclose : c = ')'
        · subst hclose
          have hblank : isBlank ')' = false := rfl
          simp [hblank, hend]
        · by_cases hblank : isBlank c = true ∧ n = 0
          · obtain ⟨hblank, rfl⟩ := hblank
            cases hargs : startsWith ['('] (trimStart cs) with
            | true => simp [hopen, hclose, hblank, h.zero]
            | false => simp [hopen, hclose, hblank, h.zero]
          · rcases not_and_or.mp hblank with hblank | hdepth
            · simp [hopen, hclose, hblank]
            · simp [hopen, hclose, hzero, hdepth]

end Types

/-! ## Columns -/

/-- The count of the type tells zero from other depths below the bound.  An exact number
    does so for every bound. -/
def CountsBelow (bound : Nat) : Prop := ∃ shown : Int → D, Shows shown bound

theorem length_splitName_le (cs : List Char) : (Schema.splitName cs).2.length ≤ cs.length := by
  have hbare : (Schema.splitBareName cs).2.length ≤ cs.length := List.length_dropWhile_le ..
  cases cs with
  | nil => exact Nat.le_refl 0
  | cons c rest =>
      rw [Schema.splitName]
      cases closingMark? c with
      | none => exact hbare
      | some closing =>
          have hdrop := List.length_dropWhile_le (· != closing) rest
          dsimp only
          cases hafter : rest.dropWhile (· != closing) with
          | nil => exact hbare
          | cons d after =>
              rw [hafter, List.length_cons] at hdrop
              show after.length ≤ rest.length + 1
              omega

theorem columnOfPiece_ok (piece : List Char) :
    ∃ column, Offsets.columnOfPiece D piece = .ok column
      ∧ ∀ bound, CountsBelow D bound → piece.length < bound →
        column = Schema.columnOfPiece piece := by
  have hlength := length_splitName_le piece
  rw [Offsets.columnOfPiece, splitName_eq, Schema.columnOfPiece]
  dsimp only [bind, Except.bind]
  rw [declaredType_eq]
  dsimp only
  rw [columnOfDeclared_ok]
  refine ⟨_, rfl, ?_⟩
  rintro bound ⟨shown, hshown⟩ hbound
  have hstart : (trimStart (Schema.splitName piece).2).length ≤ (Schema.splitName piece).2.length :=
    List.length_dropWhile_le ..
  rw [← hshown.zero, hshown.typeText_eq _ 0 (by omega)]

theorem readPiece_ok (text : List Char) :
    ∃ piece, Offsets.readPiece D text = .ok piece
      ∧ ∀ bound, CountsBelow D bound → text.length < bound → piece = Schema.readPiece text := by
  have hlength := (trim_cases text).2
  rw [Offsets.readPiece, Schema.readPiece]
  split
  · exact ⟨_, rfl, fun _ _ _ => rfl⟩
  · split
    · split
      · rw [listedNames_eq]
        exact ⟨_, rfl, fun _ _ _ => rfl⟩
      · exact ⟨_, rfl, fun _ _ _ => rfl⟩
    · -- only the type of a column is found with a count
      obtain ⟨column, hok, hcolumn⟩ := columnOfPiece_ok D (trim text)
      rw [hok]
      refine ⟨_, rfl, fun bound hcounts hbound => ?_⟩
      rw [hcolumn bound hcounts (by omega)]

theorem readPieces_ok (texts : List (List Char)) :
    ∃ read, texts.mapM (Offsets.readPiece D) = .ok read
      ∧ ∀ bound, CountsBelow D bound → (∀ text ∈ texts, text.length < bound) →
        read = texts.map Schema.readPiece := by
  induction texts with
  | nil => exact ⟨[], rfl, fun _ _ _ => rfl⟩
  | cons text texts ih =>
      obtain ⟨piece, hok, hpiece⟩ := readPiece_ok D text
      obtain ⟨read, hrest, hread⟩ := ih
      refine ⟨piece :: read, ?_, ?_⟩
      · rw [List.mapM_cons, hok, hrest]
        rfl
      · intro bound hcounts hbound
        obtain ⟨htext, htexts⟩ := List.forall_mem_cons.mp hbound
        rw [List.map_cons, hpiece bound hcounts htext, hread bound hcounts htexts]

/-! ## Statements -/

variable {D} in
/-- The body is cut where its pieces end, and every slice for them exists. -/
theorem splitFrom_eq (cs : List Char) :
    ∀ (done current : List Char) (count : D),
      Offsets.splitFrom (done ++ current ++ cs) count (utf8Len done)
        (charOffsets (utf8Len (done ++ current)) cs) = .ok (glue current (pieces count cs)) := by
  induction cs with
  | nil =>
      intro done current count
      rw [List.append_nil, charOffsets, Offsets.splitFrom, sliceFrom_append]
      show Except.ok [current] = .ok [current ++ []]
      rw [List.append_nil]
  | cons c cs ih =>
      intro done current count
      -- a character that does not cut belongs to the current piece
      have hpass (next : D) : Offsets.splitFrom (done ++ current ++ c :: cs) next (utf8Len done)
          (charOffsets (utf8Len (done ++ current ++ [c])) cs)
            = .ok (glue current (glue [c] (pieces next cs))) := by
        have h := ih done (current ++ [c]) next
        rwa [← List.append_assoc, List.append_assoc (done ++ current), glue_append] at h
      rw [charOffsets_cons, Offsets.splitFrom, pieces, countAfter]
      by_cases hopen : c = '('
      · rw [if_pos hopen, if_neg (by simp [hopen]), if_pos hopen]
        exact hpass _
      · by_cases hclose : c = ')'
        · rw [if_neg hopen, if_pos hclose, if_neg (by simp [hclose]), if_neg hopen, if_pos hclose]
          exact hpass _
        · rw [if_neg hopen, if_neg hclose, if_neg hopen, if_neg hclose]
          split
          · rename_i hcut
            obtain ⟨rfl, rfl⟩ := hcut
            have hbyte : ','.utf8Size = 1 := rfl
            have hpiece : slice (utf8Len done) (utf8Len (done ++ current))
                (done ++ current ++ ',' :: cs) = .ok current :=
              slice_append done current (',' :: cs)
            -- what is cut off ends with the comma, and the next piece is empty so far
            have hrest := ih (done ++ current ++ [',']) [] 0
            have hstart : utf8Len (done ++ current ++ [',']) = utf8Len (done ++ current) + 1 := by
              rw [String.utf8Len_append, String.utf8Len_cons, String.utf8Len_nil, hbyte]
            rw [List.append_nil, hstart, List.append_assoc _ [','], List.singleton_append] at hrest
            rw [hpiece, hstart]
            show (Offsets.splitFrom _ _ _ _ >>= fun read => .ok (current :: read)) = _
            rw [hrest, glue_nil (pieces_ne_nil 0 cs)]
            show Except.ok (current :: pieces 0 cs) = .ok ((current ++ []) :: pieces 0 cs)
            rw [List.append_nil]
          · exact hpass _

theorem splitTopLevel_eq (body : List Char) :
    Offsets.splitTopLevel D body = .ok (pieces (0 : D) body) := by
  have h := splitFrom_eq body [] [] (0 : D)
  rwa [glue_nil (pieces_ne_nil 0 body)] at h

/-- The reader by offsets reads columns, and they are those of the reader by characters
    as long as the count is below its bound. -/
theorem readColumns_ok (sql : String) :
    ∃ columns, Offsets.readColumns D sql = .ok columns
      ∧ ∀ bound, CountsBelow D bound → sql.length < bound → columns = Schema.readColumns sql := by
  rw [Offsets.readColumns, Schema.readColumns]
  rcases between?_cases sql.toList with ⟨hnone, hok⟩ | ⟨before, body, after, htext, hsome, hok⟩
  · rw [hok, hnone]
    exact ⟨[], rfl, fun _ _ _ => rfl⟩
  · obtain ⟨read, hpieces, hread⟩ := readPieces_ok D (pieces (0 : D) body)
    rw [hok, hsome]
    refine ⟨columnsOfPieces read, ?_, fun bound hcounts hbound => ?_⟩
    · show (Offsets.splitTopLevel D body >>= fun texts =>
        texts.mapM (Offsets.readPiece D) >>= fun read => .ok (columnsOfPieces read)) = _
      rw [splitTopLevel_eq]
      show ((pieces (0 : D) body).mapM (Offsets.readPiece D) >>= fun read =>
        .ok (columnsOfPieces read)) = _
      rw [hpieces]
      rfl
    · have hlength : body.length < sql.length := by
        rw [← String.length_toList, htext]
        simp only [List.length_append, List.length_cons]
        omega
      -- within its bound the counter shows the depth, and zero means zero
      have hcut : pieces (0 : D) body = Schema.splitTopLevel 0 body := by
        obtain ⟨shown, hshown⟩ := hcounts
        rw [← hshown.zero]
        exact hshown.pieces_eq body 0 (by omega)
      -- a piece is no longer than the body, so that the same bound serves it
      have hshort : ∀ text ∈ pieces (0 : D) body, text.length < bound := by
        intro text htext
        have hpiece := length_le_intercalate htext
        rw [(isCut_pieces 0 body).joined] at hpiece
        omega
      rw [hread bound hcounts hshort, hcut]

variable {D} in
/-- A count from zero that shows the depth cuts a body where the depth is zero. -/
theorem Shows.isCut_pieces {shown : Int → D} {bound : Nat} (h : Shows shown bound)
    (body : List Char) :
    IsCut (fun before => shown (depth before) = 0) body (pieces (0 : D) body) := by
  have hcut := Schema.isCut_pieces (0 : D) body
  simp only [h.foldl_eq] at hcut
  exact hcut

/-- **NO SLICE IS OUT OF BOUNDS**, whatever the text: the reader with a count in words of 32
    bits takes every slice, and so does the one with the exact depth.  Below two to the power of
    31 characters the count is the depth, and both read the same columns.

    The pieces of a body, joined with commas, are the body, and it is cut exactly at the commas
    before which the depth, as it is counted, is zero. -/
theorem readColumns_sliced :
    (∀ sql : String, ∃ columns, Offsets.readColumns Int32 sql = .ok columns
        ∧ (sql.length < 2147483648 → columns = Schema.readColumns sql))
      ∧ (∀ sql : String, Offsets.readColumns Int sql = .ok (Schema.readColumns sql))
      ∧ (∀ body : List Char, ∃ pieces, Offsets.splitTopLevel Int32 body = .ok pieces
        ∧ IsCut (fun before => Int32.ofInt (depth before) = 0) body pieces
        ∧ (body.length < 2147483648 → pieces = Schema.splitTopLevel 0 body))
      ∧ (∀ body : List Char, Offsets.splitTopLevel Int body = .ok (Schema.splitTopLevel 0 body)
        ∧ IsCut (fun before => depth before = 0) body (Schema.splitTopLevel 0 body))
      ∧ ∀ cs : List Char, cs.length < 2147483648 → (Int32.ofInt (depth cs)).toInt = depth cs := by
  -- a counter of 32 bits and an exact one, first for the reader and then for the cutting
  refine ⟨?_, ?_, ?_, ?_, fun cs h => toInt_ofInt_depth h⟩
  · intro sql
    obtain ⟨columns, hok, hcolumns⟩ := readColumns_ok Int32 sql
    exact ⟨columns, hok, hcolumns _ ⟨_, shows_int32⟩⟩
  · intro sql
    obtain ⟨columns, hok, hcolumns⟩ := readColumns_ok Int sql
    rw [hok, hcolumns _ ⟨_, shows_int (sql.length + 1)⟩ (Nat.lt_succ_self _)]
  · intro body
    refine ⟨pieces (0 : Int32) body, splitTopLevel_eq Int32 body,
      shows_int32.isCut_pieces body, fun hlength => ?_⟩
    exact shows_int32.pieces_eq body 0 (by omega)
  · intro body
    have hpieces : pieces (0 : Int) body = Schema.splitTopLevel 0 body :=
      (shows_int (body.length + 1)).pieces_eq body 0 (by omega)
    have hcut := (shows_int 0).isCut_pieces body
    rw [hpieces] at hcut
    exact ⟨(splitTopLevel_eq Int body).trans (congrArg _ hpieces), hcut⟩

/-- A text that is no statement: marks and parentheses are not closed or close too much, a name
    is empty, and characters of two bytes stand next to all of them. -/
def brokenDefinition : String := "é(\"ü ä\" CHAR (5), [é, \"\"INT,)), ü TEXT NOT NULL)ß("

/-- The broken text is read slice by slice.  Its letters have two bytes, and its
    parentheses and quotes do not match. -/
theorem readColumns_sliced_broken :
    Offsets.readColumns Int32 brokenDefinition = .ok (Schema.readColumns brokenDefinition)
      ∧ (Schema.readColumns brokenDefinition).map (·.name) = ["ü ä", "é", "", ")),"] := by
  obtain ⟨columns, hok, hcolumns⟩ := readColumns_sliced.1 brokenDefinition
  refine ⟨?_, by decide +kernel⟩
  rw [hok, hcolumns (by decide +kernel)]

end Gridbase.Schema
