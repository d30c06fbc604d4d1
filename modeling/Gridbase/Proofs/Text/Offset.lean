import Gridbase.Text
import Mathlib.Data.List.TakeWhile
import Mathlib.Data.String.Basic

/-! # Byte offsets

    Places in a text counted in bytes of UTF-8, and the SLICE of a text between two of them.
    There is none unless the offsets are in order, and a character begins or the text ends at
    either of them (`slice_eq_ok_iff`).

    A search answers with the bytes of all characters before the one it finds.  What is cut at
    such offsets is a part of the text as the characters before and after it tell, and the slice
    exists (`slice_append`, `findOffset_append`, `lastOffset_append`). -/

namespace Gridbase.Text

open String (utf8Len)

/-! ## Slices -/

/-- A pair of offsets between which a text of some bytes has no slice: they are in the
    wrong order, or one of them is inside a character or behind the end. -/
structure BadSlice where
  start : Nat
  stop : Nat
  bytes : Nat
deriving DecidableEq

/-- A character of the text begins at the offset, or the text ends there. -/
def isBoundary (cs : List Char) (offset : Nat) : Bool :=
  String.Pos.Raw.isValid (String.ofList cs) ⟨offset⟩

/-- The characters between two offsets.  The check is part of it, so a slice that does
    not exist is told from an empty one. -/
def slice (start stop : Nat) (cs : List Char) : Except BadSlice (List Char) :=
  if start ≤ stop && isBoundary cs start && isBoundary cs stop then
    .ok (String.Pos.Raw.extract (String.ofList cs) ⟨start⟩ ⟨stop⟩).toList
  else .error ⟨start, stop, utf8Len cs⟩

/-- The characters from an offset to the end. -/
def sliceFrom (start : Nat) (cs : List Char) : Except BadSlice (List Char) :=
  slice start (utf8Len cs) cs

/-- The boundaries of a text are the bytes of its beginnings. -/
theorem isBoundary_iff {cs : List Char} {offset : Nat} :
    isBoundary cs offset = true ↔
      ∃ before after, cs = before ++ after ∧ offset = utf8Len before := by
  rw [isBoundary, String.Pos.Raw.isValid_eq_true_iff, String.Pos.Raw.isValid_iff_exists_append]
  constructor
  · rintro ⟨s, t, htext, hoffset⟩
    have hbytes : offset = s.utf8ByteSize := congrArg String.Pos.Raw.byteIdx hoffset
    refine ⟨s.toList, t.toList, ?_, ?_⟩
    · rw [← String.toList_append, ← htext, String.toList_ofList]
    · rw [hbytes, String.utf8Len_toList]
  · rintro ⟨before, after, rfl, rfl⟩
    refine ⟨String.ofList before, String.ofList after, String.ofList_append, ?_⟩
    rw [← String.utf8ByteSize_ofList]
    rfl

/-- **A PART OF A TEXT** is the slice from the bytes before it to those up to its end.
    Every slice that is taken is brought into this form. -/
theorem slice_append (before part after : List Char) :
    slice (utf8Len before) (utf8Len (before ++ part)) (before ++ part ++ after) = .ok part := by
  have hstart : isBoundary (before ++ part ++ after) (utf8Len before) = true :=
    isBoundary_iff.mpr ⟨before, part ++ after, List.append_assoc .., rfl⟩
  have hstop : isBoundary (before ++ part ++ after) (utf8Len (before ++ part)) = true :=
    isBoundary_iff.mpr ⟨before ++ part, after, rfl, rfl⟩
  have horder : utf8Len before ≤ utf8Len (before ++ part) := by
    rw [String.utf8Len_append]
    exact Nat.le_add_right ..
  rw [slice, hstart, hstop, decide_eq_true horder, String.utf8Len_append, String.extract_of_valid,
    String.toList_ofList]
  rfl

/-- **A SLICE EXISTS** between the bytes of two beginnings of the text, the first of them a
    beginning of the second. -/
theorem slice_eq_ok_iff {start stop : Nat} {cs part : List Char} :
    slice start stop cs = .ok part ↔ ∃ before after, cs = before ++ part ++ after
      ∧ start = utf8Len before ∧ stop = utf8Len (before ++ part) := by
  constructor
  · intro h
    cases hcond : decide (start ≤ stop) && isBoundary cs start && isBoundary cs stop with
    | false =>
        rw [slice, hcond] at h
        exact nomatch h
    | true =>
        rw [Bool.and_eq_true, Bool.and_eq_true, decide_eq_true_eq] at hcond
        obtain ⟨⟨horder, hstart⟩, hstop⟩ := hcond
        obtain ⟨before, rest, rfl, rfl⟩ := isBoundary_iff.mp hstart
        obtain ⟨upTo, after, htext, rfl⟩ := isBoundary_iff.mp hstop
        -- the shorter of two beginnings is a beginning of the longer one
        obtain ⟨middle, rfl, rfl⟩ : ∃ middle, upTo = before ++ middle ∧ rest = middle ++ after := by
          rcases List.append_eq_append_iff.mp htext with
            ⟨middle, hupTo, hrest⟩ | ⟨middle, hbefore, hafter⟩
          · exact ⟨middle, hupTo, hrest⟩
          · rw [hbefore, String.utf8Len_append] at horder
            have hmiddle : middle = [] := String.utf8Len_eq_zero.mp (by omega)
            subst hmiddle
            exact ⟨[], by simp [hbefore], by simp [hafter]⟩
        rw [← List.append_assoc, slice_append] at h
        cases h
        exact ⟨before, after, (List.append_assoc ..).symm, rfl, rfl⟩
  · rintro ⟨before, after, rfl, rfl, rfl⟩
    exact slice_append before part after

/-- The slice from the bytes of a beginning is what follows it. -/
theorem sliceFrom_append (before after : List Char) :
    sliceFrom (utf8Len before) (before ++ after) = .ok after := by
  have h := slice_append before after []
  rwa [List.append_nil] at h

/-- The slice from the start is the beginning. -/
theorem slice_zero_append (before after : List Char) :
    slice 0 (utf8Len before) (before ++ after) = .ok before :=
  slice_append [] before after

/-! ## Characters with their offsets -/

/-- The characters with their offsets, the first of which is given. -/
def charOffsets : Nat → List Char → List (Nat × Char)
  | _, [] => []
  | offset, c :: cs => (offset, c) :: charOffsets (offset + c.utf8Size) cs

/-- After a beginning the offsets go on from its bytes. -/
theorem charOffsets_cons (before : List Char) (c : Char) (cs : List Char) :
    charOffsets (utf8Len before) (c :: cs)
      = (utf8Len before, c) :: charOffsets (utf8Len (before ++ [c])) cs := by
  rw [charOffsets, String.utf8Len_append, String.utf8Len_cons, String.utf8Len_nil, Nat.zero_add]

/-! ## Searches -/

/-- The offset of the first character of a class, in bytes from the beginning. -/
def findOffset (p : Char → Bool) : List Char → Option Nat
  | [] => none
  | c :: cs => if p c then some 0 else (findOffset p cs).map (· + c.utf8Size)

/-- The offset of the last character of a class, in bytes from the beginning. -/
def lastOffset (p : Char → Bool) : List Char → Option Nat
  | [] => none
  | c :: cs =>
      match lastOffset p cs with
      | some offset => some (offset + c.utf8Size)
      | none => if p c then some 0 else none

/-- A text without a character of the class. -/
def Lacks (p : Char → Bool) (cs : List Char) : Prop := ∀ c ∈ cs, p c = false

variable {p : Char → Bool}

theorem Lacks.dropWhile {cs : List Char} (h : Lacks p cs) : cs.dropWhile (!p ·) = [] :=
  List.dropWhile_eq_nil_iff.mpr fun c hc => by rw [h c hc]; rfl

theorem Lacks.takeWhile {cs : List Char} (h : Lacks p cs) : cs.takeWhile (!p ·) = cs :=
  List.takeWhile_eq_self_iff.mpr fun c hc => by rw [h c hc]; rfl

theorem Lacks.takeWhile_append {before : List Char} {c : Char} (h : Lacks p before)
    (hc : p c = true) (after : List Char) : (before ++ c :: after).takeWhile (!p ·) = before := by
  have hbefore : ∀ d ∈ before, (!p d) = true := fun d hd => by rw [h d hd]; rfl
  rw [List.takeWhile_append_of_pos hbefore, List.takeWhile_cons_of_neg (by simp [hc]),
    List.append_nil]

theorem Lacks.dropWhile_append {before : List Char} {c : Char} (h : Lacks p before)
    (hc : p c = true) (after : List Char) :
    (before ++ c :: after).dropWhile (!p ·) = c :: after := by
  have hbefore : ∀ d ∈ before, (!p d) = true := fun d hd => by rw [h d hd]; rfl
  rw [List.dropWhile_append_of_pos hbefore, List.dropWhile_cons_of_neg (by simp [hc])]

/-- A text lacks a character exactly if the character is not in it. -/
theorem lacks_iff_not_mem {mark : Char} {cs : List Char} : Lacks (· == mark) cs ↔ mark ∉ cs := by
  constructor
  · intro h hmark
    exact absurd (h mark hmark) (by simp)
  · intro h c hc
    exact beq_eq_false_iff_ne.mpr fun heq => h (heq ▸ hc)

/-- A text lacks the class or begins, up to a character of the class, with one that does. -/
theorem lacks_or_first (p : Char → Bool) (cs : List Char) :
    Lacks p cs ∨ ∃ before c after, cs = before ++ c :: after ∧ Lacks p before ∧ p c = true := by
  induction cs with
  | nil => exact Or.inl fun c hc => nomatch hc
  | cons d cs ih =>
      cases hd : p d with
      | true => exact Or.inr ⟨[], d, cs, rfl, (fun c hc => nomatch hc), hd⟩
      | false =>
          rcases ih with hlacks | ⟨before, c, after, rfl, hbefore, hc⟩
          · exact Or.inl (List.forall_mem_cons.mpr ⟨hd, hlacks⟩)
          · exact Or.inr ⟨d :: before, c, after, rfl, List.forall_mem_cons.mpr ⟨hd, hbefore⟩, hc⟩

/-- A text lacks the class or ends, from a character of the class on, with one that does. -/
theorem lacks_or_last (p : Char → Bool) (cs : List Char) :
    Lacks p cs ∨ ∃ before c after, cs = before ++ c :: after ∧ Lacks p after ∧ p c = true := by
  rcases lacks_or_first p cs.reverse with hlacks | ⟨before, c, after, hcs, hbefore, hc⟩
  · exact Or.inl fun c hc => hlacks c (List.mem_reverse.mpr hc)
  · refine Or.inr ⟨after.reverse, c, before.reverse, ?_, ?_, hc⟩
    · rw [← List.reverse_reverse cs, hcs, List.reverse_append, List.reverse_cons,
        List.append_assoc, List.singleton_append]
    · exact fun d hd => hbefore d (List.mem_reverse.mp hd)

theorem findOffset_of_lacks {cs : List Char} (h : Lacks p cs) : findOffset p cs = none := by
  induction cs with
  | nil => rfl
  | cons c cs ih =>
      obtain ⟨hc, hcs⟩ := List.forall_mem_cons.mp h
      rw [findOffset, hc, ih hcs]
      rfl

/-- **THE FIRST OF A CLASS** is found at the bytes before it.  So it is an offset where
    a character begins. -/
theorem findOffset_append {before : List Char} {c : Char} (h : Lacks p before) (hc : p c = true)
    (after : List Char) : findOffset p (before ++ c :: after) = some (utf8Len before) := by
  induction before with
  | nil => rw [List.nil_append, findOffset, hc]; rfl
  | cons d before ih =>
      obtain ⟨hd, hbefore⟩ := List.forall_mem_cons.mp h
      rw [List.cons_append, findOffset, hd, ih hbefore, String.utf8Len_cons]
      rfl

theorem lastOffset_of_lacks {cs : List Char} (h : Lacks p cs) : lastOffset p cs = none := by
  induction cs with
  | nil => rfl
  | cons c cs ih =>
      obtain ⟨hc, hcs⟩ := List.forall_mem_cons.mp h
      rw [lastOffset, ih hcs, hc]
      rfl

/-- **THE LAST OF A CLASS** is found at the bytes before it.  So it is an offset where a
    character begins. -/
theorem lastOffset_append {after : List Char} {c : Char} (h : Lacks p after) (hc : p c = true)
    (before : List Char) : lastOffset p (before ++ c :: after) = some (utf8Len before) := by
  induction before with
  | nil => rw [List.nil_append, lastOffset, lastOffset_of_lacks h, hc]; rfl
  | cons d before ih => rw [List.cons_append, lastOffset, ih, String.utf8Len_cons]

/-- What lacks the class at the end of a text does not matter. -/
theorem lastOffset_append_of_lacks {after : List Char} (h : Lacks p after) (before : List Char) :
    lastOffset p (before ++ after) = lastOffset p before := by
  induction before with
  | nil => exact lastOffset_of_lacks h
  | cons d before ih => rw [List.cons_append, lastOffset, lastOffset, ih]

/-- A character is found inside the text. -/
theorem lastOffset_lt {cs : List Char} {offset : Nat} (h : lastOffset p cs = some offset) :
    offset < utf8Len cs := by
  rcases lacks_or_last p cs with hlacks | ⟨before, c, after, rfl, hafter, hc⟩
  · rw [lastOffset_of_lacks hlacks] at h
    cases h
  · rw [lastOffset_append hafter hc] at h
    cases h
    have := c.utf8Size_pos
    rw [String.utf8Len_append, String.utf8Len_cons]
    omega

end Gridbase.Text
