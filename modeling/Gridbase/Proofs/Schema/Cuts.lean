import Gridbase.Proofs.Schema.Cutting
import Mathlib.Data.List.Basic

/-! # Where a body is cut

    The depth of parentheses may be counted in any type of numbers: exactly in the integers, or
    in machine words, whose count comes round again after an overflow.  However it is counted,
    the pieces of a body, joined with commas, are the body, and it is cut exactly at the commas
    before which the count is zero (`isCut_pieces`).

    A count SHOWS the depth below a bound if it tells zero from every other depth there.  The
    integers do so without a bound, and words of 32 bits below two to the power of 31.  A text
    needs as many characters to reach that depth: in a shorter one no count overflows
    (`toInt_ofInt_depth`).  Arithmetic that stops at an overflow instead of coming round stops
    there; up to that place it counts in the same way. -/

namespace Gridbase.Schema

open Gridbase.Text

/-! ## Counting -/

section Counting

variable {D : Type} [OfNat D 0] [OfNat D 1] [Add D] [Sub D]

/-- The count of open parentheses after a character.  It may go below zero, or wrap
    around, where the type of the count allows. -/
def countAfter (count : D) (c : Char) : D :=
  if c = '(' then count + 1 else if c = ')' then count - 1 else count

/-- Numbers that go up and down with the depth, and are zero below the bound for depth zero
    only. -/
structure Shows (shown : Int → D) (bound : Nat) : Prop where
  zero : shown 0 = 0
  up : ∀ n, shown (n + 1) = shown n + 1
  down : ∀ n, shown (n - 1) = shown n - 1
  zero_iff : ∀ n : Int, n.natAbs < bound → (shown n = 0 ↔ n = 0)

theorem shows_int (bound : Nat) : Shows (D := Int) id bound :=
  ⟨rfl, fun _ => rfl, fun _ => rfl, fun _ _ => Iff.rfl⟩

/-- Words of 32 bits show the depth below two to the power of 31. -/
theorem shows_int32 : Shows Int32.ofInt 2147483648 where
  zero := rfl
  up n := Int32.ofInt_add n 1
  down n := Int32.ofInt_sub n 1
  zero_iff := by
    intro n hn
    -- a word is zero for the multiples of its range, of which only zero is below the bound
    have hsmall : n.bmod 4294967296 = n := Int.bmod_eq_of_le (by omega) (by omega)
    have hshown : Int32.ofInt n = 0 ↔ n.bmod 4294967296 = 0 := Int32.ofInt_eq_iff_bmod_eq_toInt n 0
    rw [hshown, hsmall]

/-- The depth of parentheses at the end of a text, as an exact number: negative if more
    are closed than were opened. -/
def depth (cs : List Char) : Int := cs.count '(' - cs.count ')'

variable {shown : Int → D} {bound : Nat}

/-- A shown depth goes on as the depth does. -/
theorem Shows.countAfter_eq (h : Shows shown bound) (n : Int) (c : Char) :
    countAfter (shown n) c = shown (depthAfter n c) := by
  rw [countAfter, depthAfter]
  split
  · exact (h.up n).symm
  · split
    · exact (h.down n).symm
    · rfl

theorem natAbs_depthAfter_le (n : Int) (c : Char) : (depthAfter n c).natAbs ≤ n.natAbs + 1 := by
  rw [depthAfter]
  split
  · omega
  · split <;> omega

/-- The depth after a text is the one before it with the parentheses of the text. -/
theorem foldl_depthAfter (cs : List Char) : ∀ n, cs.foldl depthAfter n = n + depth cs := by
  induction cs with
  | nil => intro n; exact (Int.add_zero n).symm
  | cons c cs ih =>
      intro n
      have hdepth : depthAfter n c + depth cs = n + depth (c :: cs) := by
        rw [depthAfter, depth, depth]
        by_cases hopen : c = '('
        · rw [if_pos hopen, hopen, List.count_cons_self, List.count_cons_of_ne (by decide)]
          omega
        · rw [if_neg hopen, List.count_cons_of_ne hopen]
          by_cases hclose : c = ')'
          · rw [if_pos hclose, hclose, List.count_cons_self]
            omega
          · rw [if_neg hclose, List.count_cons_of_ne hclose]
      rw [List.foldl_cons, ih, hdepth]

/-- The depth is at most the number of characters. -/
theorem natAbs_depth_le (cs : List Char) : (depth cs).natAbs ≤ cs.length := by
  have hopen : cs.count '(' ≤ cs.length := List.count_le_length
  have hclose : cs.count ')' ≤ cs.length := List.count_le_length
  rw [depth]
  omega

/-- **32 BITS HOLD THE DEPTH** of a text of fewer than two to the power of 31 characters. -/
theorem toInt_ofInt_depth {cs : List Char} (h : cs.length < 2147483648) :
    (Int32.ofInt (depth cs)).toInt = depth cs := by
  have hdepth := natAbs_depth_le cs
  have hword : (depth cs).bmod 4294967296 = (Int32.ofInt (depth cs)).toInt :=
    (Int32.ofInt_eq_iff_bmod_eq_toInt _ _).mp rfl
  rw [← hword]
  exact Int.bmod_eq_of_le (by omega) (by omega)

theorem Shows.foldl_eq (h : Shows shown bound) (cs : List Char) :
    cs.foldl countAfter 0 = shown (depth cs) := by
  have hfold : ∀ n, cs.foldl countAfter (shown n) = shown (cs.foldl depthAfter n) := by
    induction cs with
    | nil => exact fun n => rfl
    | cons c cs ih =>
        intro n
        rw [List.foldl_cons, List.foldl_cons, h.countAfter_eq, ih]
  rw [← h.zero, hfold, foldl_depthAfter, Int.zero_add]

end Counting

/-! ## Pieces -/

variable {D : Type} [DecidableEq D] [OfNat D 0] [OfNat D 1] [Add D] [Sub D]

/-- The pieces of a text, cut at the commas where the count is zero.  The count is of
    any type that has zero and one. -/
def pieces : D → List Char → List (List Char)
  | _, [] => [[]]
  | count, c :: cs =>
      if c = ',' ∧ count = 0 then [] :: pieces count cs
      else glue [c] (pieces (countAfter count c) cs)

theorem pieces_ne_nil (count : D) (cs : List Char) : pieces count cs ≠ [] := by
  cases cs with
  | nil => exact fun h => nomatch h
  | cons c cs =>
      rw [pieces]
      split
      · exact fun h => nomatch h
      · cases pieces (countAfter count c) cs <;> exact fun h => nomatch h

theorem glue_nil {ps : List (List Char)} (h : ps ≠ []) : glue [] ps = ps := by
  cases ps with
  | nil => exact absurd rfl h
  | cons p ps => rfl

/-- A count that shows the depth cuts where the depth does. -/
theorem Shows.pieces_eq {shown : Int → D} {bound : Nat} (h : Shows shown bound)
    (cs : List Char) :
    ∀ n : Int, n.natAbs + cs.length < bound → pieces (shown n) cs = splitTopLevel n cs := by
  induction cs with
  | nil => exact fun _ _ => rfl
  | cons c cs ih =>
      intro n hn
      have hlength : (c :: cs).length = cs.length + 1 := rfl
      have hzero : shown n = 0 ↔ n = 0 := h.zero_iff n (by omega)
      have hstep := natAbs_depthAfter_le n c
      rw [pieces, h.countAfter_eq]
      by_cases hcut : c = ',' ∧ n = 0
      · obtain ⟨rfl, rfl⟩ := hcut
        rw [if_pos ⟨rfl, h.zero⟩, ih 0 (by omega), splitTopLevel_comma]
      · have hpass : c ≠ ',' ∨ n ≠ 0 := by tauto
        rw [if_neg (by rwa [hzero]), ih _ (by omega), splitTopLevel_cons hpass]

/-! ## Cuts -/

/-- The pieces up to some place are the text before it, and those from there on the text after
    it. -/
def CutAt (pieces : List (List Char)) (before after : List Char) : Prop :=
  ∃ left right, left ≠ [] ∧ right ≠ [] ∧ pieces = left ++ right
    ∧ [','].intercalate left = before ∧ [','].intercalate right = after

/-- The pieces are those of a body, cut exactly at the commas before which the condition
    holds. -/
structure IsCut (cut : List Char → Prop) (body : List Char) (pieces : List (List Char)) : Prop where
  joined : [','].intercalate pieces = body
  cut_iff : ∀ before after, body = before ++ ',' :: after → (CutAt pieces before after ↔ cut before)

theorem intercalate_cons {ps : List (List Char)} (h : ps ≠ []) (p : List Char) :
    [','].intercalate (p :: ps) = p ++ ',' :: [','].intercalate ps := by
  cases ps with
  | nil => exact absurd rfl h
  | cons q ps => rw [List.intercalate_cons_cons, List.append_assoc, List.singleton_append]

theorem intercalate_glue {ps : List (List Char)} (h : ps ≠ []) (cs : List Char) :
    [','].intercalate (glue cs ps) = cs ++ [','].intercalate ps := by
  cases ps with
  | nil => exact absurd rfl h
  | cons p ps =>
      rw [glue]
      cases ps with
      | nil => rw [List.intercalate_singleton, List.intercalate_singleton]
      | cons q ps =>
          rw [List.intercalate_cons_cons, List.intercalate_cons_cons, List.append_assoc,
            List.append_assoc, List.append_assoc]

/-- A piece is not longer than the text. -/
theorem length_le_intercalate {p : List Char} {ps : List (List Char)} (h : p ∈ ps) :
    p.length ≤ ([','].intercalate ps).length := by
  induction ps with
  | nil => cases h
  | cons q ps ih =>
      cases ps with
      | nil =>
          have honly : [','].intercalate [q] = p := by
            rw [List.intercalate_singleton, List.mem_singleton.mp h]
          exact Nat.le_of_eq (congrArg List.length honly.symm)
      | cons r ps =>
          rw [intercalate_cons (List.cons_ne_nil _ _), List.length_append, List.length_cons]
          rcases List.mem_cons.mp h with rfl | hrest
          · omega
          · have := ih hrest
            omega

/-- There is a cut after the first piece. -/
theorem cutAt_first {ps : List (List Char)} (h : ps ≠ []) (p : List Char) :
    CutAt (p :: ps) p ([','].intercalate ps) :=
  ⟨[p], ps, List.cons_ne_nil _ _, h, rfl, List.intercalate_singleton, rfl⟩

/-- The cuts behind the first piece are those of the others.  So the cuts can be counted
    from the left, piece by piece. -/
theorem cutAt_cons (p before after : List Char) (ps : List (List Char)) :
    CutAt (p :: ps) (p ++ ',' :: before) after ↔ CutAt ps before after := by
  constructor
  · -- a cut behind the first comma leaves at least one more piece on its left
    rintro ⟨left, right, hleft, hright, hps, hbefore, hafter⟩
    cases left with
    | nil => exact absurd rfl hleft
    | cons q left =>
        obtain ⟨rfl, rfl⟩ := List.cons.inj hps
        cases left with
        | nil =>
            rw [List.intercalate_singleton] at hbefore
            exact absurd (List.append_cancel_left ((List.append_nil p).trans hbefore))
              (List.cons_ne_nil _ _).symm
        | cons r left =>
            rw [intercalate_cons (List.cons_ne_nil _ _)] at hbefore
            have hrest := (List.cons.inj (List.append_cancel_left hbefore)).2
            exact ⟨r :: left, right, List.cons_ne_nil _ _, hright, rfl, hrest, hafter⟩
  · rintro ⟨left, right, hleft, hright, rfl, rfl, hafter⟩
    exact ⟨p :: left, right, List.cons_ne_nil _ _, hright, rfl, intercalate_cons hleft p, hafter⟩

/-- A character put before the first piece is put before the text.  The first piece goes
    on, and no cut moves within it. -/
theorem cutAt_glue {ps : List (List Char)} (h : ps ≠ []) (c : Char) (before after : List Char) :
    CutAt (glue [c] ps) (c :: before) after ↔ CutAt ps before after := by
  cases ps with
  | nil => exact absurd rfl h
  | cons p ps =>
      -- the first character belongs to the first piece on either side
      have hfirst (left : List (List Char)) :
          [','].intercalate ((c :: p) :: left) = c :: [','].intercalate (p :: left) :=
        intercalate_glue (List.cons_ne_nil p left) [c]
      constructor
      · rintro ⟨left, right, hleft, hright, hps, hbefore, hafter⟩
        cases left with
        | nil => exact absurd rfl hleft
        | cons q left =>
            obtain ⟨rfl, rfl⟩ := List.cons.inj hps
            have hrest := (List.cons.inj ((hfirst left).symm.trans hbefore)).2
            exact ⟨p :: left, right, List.cons_ne_nil _ _, hright, rfl, hrest, hafter⟩
      · rintro ⟨left, right, hleft, hright, hps, hbefore, hafter⟩
        cases left with
        | nil => exact absurd rfl hleft
        | cons q left =>
            obtain ⟨rfl, rfl⟩ := List.cons.inj hps
            exact ⟨(c :: p) :: left, right, List.cons_ne_nil _ _, hright, rfl,
              (hfirst left).trans (congrArg (c :: ·) hbefore), hafter⟩

/-- There is no cut before a character of the first piece. -/
theorem not_cutAt_glue {ps : List (List Char)} (h : ps ≠ []) (c : Char) (after : List Char) :
    ¬ CutAt (glue [c] ps) [] after := by
  rintro ⟨left, right, hleft, -, hps, hbefore, -⟩
  cases ps with
  | nil => exact absurd rfl h
  | cons p ps =>
      cases left with
      | nil => exact absurd rfl hleft
      | cons q left =>
          obtain ⟨rfl, rfl⟩ := List.cons.inj hps
          have hfirst := intercalate_glue (List.cons_ne_nil p left) [c]
          exact nomatch hfirst.symm.trans hbefore

/-- **A BODY IS CUT** exactly at the commas before which the count is zero, and nothing of it is
    lost. -/
theorem isCut_pieces (count : D) (body : List Char) :
    IsCut (fun before => before.foldl countAfter count = 0) body (pieces count body) := by
  -- induction on the text, with the count left open
  induction body generalizing count with
  | nil => exact ⟨List.intercalate_singleton, fun before after h => by simp at h⟩
  | cons c cs ih =>
      have hne := pieces_ne_nil (countAfter count c) cs
      have hrest := ih (countAfter count c)
      rw [pieces]
      -- either the first character is a cut, or it is glued to the piece behind it
      by_cases hcut : c = ',' ∧ count = 0
      · obtain ⟨rfl, rfl⟩ := hcut
        have hcount : countAfter (0 : D) ',' = 0 := rfl
        rw [hcount] at hne hrest
        rw [if_pos ⟨rfl, rfl⟩]
        refine ⟨?_, ?_⟩
        · rw [intercalate_cons hne, hrest.joined, List.nil_append]
        · intro before after htext
          cases before with
          | nil =>
              obtain ⟨-, rfl⟩ := List.cons.inj htext
              have hfirst := cutAt_first hne []
              rw [hrest.joined] at hfirst
              exact iff_of_true hfirst rfl
          | cons d before =>
              obtain ⟨rfl, hcs⟩ := List.cons.inj htext
              exact (cutAt_cons [] before after _).trans (hrest.cut_iff before after hcs)
      · rw [if_neg hcut]
        refine ⟨?_, ?_⟩
        · rw [intercalate_glue hne, hrest.joined, List.singleton_append]
        · intro before after htext
          cases before with
          | nil =>
              obtain ⟨rfl, -⟩ := List.cons.inj htext
              exact iff_of_false (not_cutAt_glue hne _ after) fun hzero => hcut ⟨rfl, hzero⟩
          | cons d before =>
              obtain ⟨rfl, hcs⟩ := List.cons.inj htext
              exact (cutAt_glue hne _ before after).trans (hrest.cut_iff before after hcs)

end Gridbase.Schema
