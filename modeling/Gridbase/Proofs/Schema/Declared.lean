import Gridbase.Proofs.Schema.Cutting
import Mathlib.Data.List.TakeWhile

/-! # Declared types, read back

    A declared type is a WORD, alone or followed by arguments in parentheses.
    The scanner finds its end in the definition of a column, and its arguments
    come back as length, or as precision and scale. -/

namespace Gridbase.Schema

open Gridbase.Text

/-- A name of a type: at least one character, all of them plain and not blank. -/
def Word (w : List Char) : Prop := w ≠ [] ∧ ∀ c ∈ w, Plain c ∧ isBlank c = false

instance (w : List Char) : Decidable (Word w) :=
  @instDecidableAnd _ _ inferInstance (List.decidableBAll _ w)

theorem Word.solid {w : List Char} (h : Word w) : Solid w :=
  solid_of_no_blank h.1 fun c hc => (h.2 c hc).2

theorem Word.level {w : List Char} (h : Word w) : Level w :=
  level_of_plain fun c hc => (h.2 c hc).1

/-- A word with arguments, in parentheses right behind it. -/
def withArgs (w args : List Char) : List Char := w ++ '(' :: (args ++ [')'])

theorem solid_withArgs {w : List Char} (hw : Word w) (args : List Char) :
    Solid (withArgs w args) := by
  obtain ⟨c, rest, hc, hblank⟩ := hw.solid.head
  exact ⟨⟨c, rest ++ '(' :: (args ++ [')']), by simp [withArgs, hc], hblank⟩,
    w ++ '(' :: args, ')', by simp [withArgs], rfl⟩

theorem level_withArgs {w args : List Char} (hw : Word w) (hargs : Flat args) :
    Level (withArgs w args) :=
  level_append hw.level (level_parens hargs)

/-! ## The end of a declared type -/

/-- Scanning passes over a word. -/
theorem declaredType_word_append {w : List Char} (h : ∀ c ∈ w, Plain c ∧ isBlank c = false)
    (rest : List Char) : declaredType 0 (w ++ rest) = w ++ declaredType 0 rest := by
  induction w with
  | nil => rfl
  | cons c w ih =>
      obtain ⟨hplain, hblank⟩ := h c (List.mem_cons_self ..)
      rw [List.cons_append, declaredType, depthAfter_plain hplain.2,
        ih fun d hd => h d (List.mem_cons_of_mem _ hd)]
      simp [hplain.2.2, hblank]

/-- A word ends at a blank that no argument list follows. -/
theorem declaredType_word {w rest : List Char} (hw : Word w)
    (hrest : startsWith ['('] (trimStart rest) = false) :
    declaredType 0 (w ++ ' ' :: rest) = w := by
  have hend : declaredType 0 (' ' :: rest) = [] := by
    have hblank : isBlank ' ' = true := rfl
    simp [declaredType, hrest, hblank]
  rw [declaredType_word_append hw.2, hend, List.append_nil]

/-- Inside the parentheses blanks belong to the type. -/
theorem declaredType_inside {args : List Char} (h : Flat args) (rest : List Char) :
    declaredType 1 (args ++ ')' :: rest) = args ++ [')'] := by
  induction args with
  | nil => simp [declaredType]
  | cons c args ih =>
      have hc := h c (List.mem_cons_self ..)
      rw [List.cons_append, declaredType, depthAfter_plain hc,
        ih fun d hd => h d (List.mem_cons_of_mem _ hd)]
      simp [hc.2]

/-- A word with arguments ends at the closing parenthesis. -/
theorem declaredType_withArgs {w args : List Char} (hw : Word w) (hargs : Flat args)
    (rest : List Char) : declaredType 0 (withArgs w args ++ rest) = withArgs w args := by
  have hopen : declaredType 0 ('(' :: (args ++ ')' :: rest)) = '(' :: (args ++ [')']) := by
    have hdepth : depthAfter 0 '(' = 1 := rfl
    have hblank : isBlank '(' = false := rfl
    rw [declaredType, hdepth, declaredType_inside hargs]
    simp [hblank]
  have htext : withArgs w args ++ rest = w ++ '(' :: (args ++ ')' :: rest) := by
    simp [withArgs]
  rw [htext, declaredType_word_append hw.2, hopen, withArgs]

/-! ## Its arguments -/

/-- A column of a declared type before its arguments are looked at: it has neither
    length nor precision nor scale. -/
def bare (name base : List Char) : ColumnInfo :=
  { name := String.ofList name, dataType := String.ofList base, isNullable := true }

/-- The column that a list of arguments gives: two numbers are precision and scale, and
    one number is a length, or a precision without places if the type is numeric. -/
def ofArguments (name base : List Char) (args : List (Option Nat)) : ColumnInfo :=
  match args with
  | some p :: some s :: _ => { bare name base with precision := byte? p, scale := byte? s }
  | some n :: _ =>
      if isNumericBase base then { bare name base with precision := byte? n, scale := some 0 }
      else { bare name base with length := some (UInt32.ofNat n) }
  | _ => bare name base

theorem columnOfDeclared_eq (name declared : List Char) :
    columnOfDeclared name declared
      = ofArguments name (upper (trim ((trim declared).takeWhile (· != '('))))
          ((splitAt ',' (argumentText (trim declared))).map argument?) := rfl

/-- Arguments leave the name and the type alone. -/
theorem ofArguments_bare (name base : List Char) (args : List (Option Nat)) :
    (ofArguments name base args).name = String.ofList name
      ∧ (ofArguments name base args).dataType = String.ofList base := by
  unfold ofArguments
  split
  · exact ⟨rfl, rfl⟩
  · split <;> exact ⟨rfl, rfl⟩
  · exact ⟨rfl, rfl⟩

private theorem word_ne_open {w : List Char} (hw : Word w) :
    ∀ c ∈ w, (c != '(') = true := by
  intro c hc
  simpa using (hw.2 c hc).1.2.1

/-- A word is all of its base. -/
theorem takeWhile_word {w : List Char} (hw : Word w) : w.takeWhile (· != '(') = w :=
  List.takeWhile_eq_self_iff.mpr (word_ne_open hw)

/-- A word is the base of a type with arguments. -/
theorem takeWhile_withArgs {w : List Char} (hw : Word w) (args : List Char) :
    (withArgs w args).takeWhile (· != '(') = w := by
  rw [withArgs, List.takeWhile_append_of_pos (word_ne_open hw),
    List.takeWhile_cons_of_neg (by decide), List.append_nil]

/-- A word alone has no arguments. -/
theorem columnOfDeclared_word (name : List Char) {w : List Char} (hw : Word w) :
    columnOfDeclared name w = bare name (upper w) := by
  have hdrop : w.dropWhile (· != '(') = [] :=
    List.dropWhile_eq_nil_iff.mpr (word_ne_open hw)
  have hargs : argumentText w = [] := by
    rw [argumentText, hdrop]
  rw [columnOfDeclared_eq, trim_solid hw.solid, takeWhile_word hw, trim_solid hw.solid, hargs]
  rfl

/-- The arguments are what stands between the parentheses. -/
theorem argumentText_withArgs {w args : List Char} (hw : Word w) (hargs : Solid args)
    (hflat : Flat args) : argumentText (withArgs w args) = args := by
  have hdrop : (withArgs w args).dropWhile (· != '(') = '(' :: (args ++ [')']) := by
    rw [withArgs, List.dropWhile_append_of_pos (word_ne_open hw),
      List.dropWhile_cons_of_neg (by decide)]
  obtain ⟨init, d, hlast, hd⟩ := hargs.last
  -- all closing parentheses at the end are dropped, and the arguments end with none
  have hne : d ≠ ')' := (hflat d (by rw [hlast]; simp)).2
  have hclose : (args ++ [')']).reverse.dropWhile (· == ')') = args.reverse := by
    rw [List.reverse_append, List.reverse_singleton, List.singleton_append,
      List.dropWhile_cons_of_pos (by decide), hlast, List.reverse_append,
      List.reverse_singleton, List.singleton_append,
      List.dropWhile_cons_of_neg (by simpa using hne)]
  rw [argumentText, hdrop]
  show trim ((args ++ [')']).reverse.dropWhile (· == ')')).reverse = args
  rw [hclose, List.reverse_reverse, trim_solid hargs]

/-- A word with arguments gives the word as base and the arguments one by one. -/
theorem columnOfDeclared_withArgs (name : List Char) {w args : List Char} (hw : Word w)
    (hargs : Solid args) (hflat : Flat args) :
    columnOfDeclared name (withArgs w args)
      = ofArguments name (upper w) ((splitAt ',' args).map argument?) := by
  rw [columnOfDeclared_eq, trim_solid (solid_withArgs hw args), takeWhile_withArgs hw,
    trim_solid hw.solid, argumentText_withArgs hw hargs hflat]

/-! ## Numbers as arguments -/

/-- A number of 32 bits is an argument, blanks around it aside. -/
theorem argument?_digits (pad : List Char) (hpad : Blank pad) {n : Nat} (h : n < 2 ^ 32) :
    argument? (pad ++ digits n) = some n := by
  have htrim : trim (pad ++ digits n) = digits n := by
    simpa using trim_padded hpad blank_nil (solid_digits n)
  rw [argument?, htrim, readNat?_digits]
  show (if n < 2 ^ 32 then some n else none) = some n
  rw [if_pos h]

theorem flat_digits (n : Nat) : Flat (digits n) := fun _ hc =>
  (plain_of_class (by decide) (isDigit_of_mem_digits hc)).2

theorem comma_not_mem_digits (n : Nat) : ',' ∉ digits n := not_mem_digits rfl n

/-- **ONE ARGUMENT** of a type that is not numeric is a length. -/
theorem columnOfDeclared_sized (name : List Char) {w : List Char} (hw : Word w)
    (hbase : isNumericBase (upper w) = false) (n : UInt32) :
    columnOfDeclared name (withArgs w (digits n.toNat))
      = { bare name (upper w) with length := some n } := by
  have harg : argument? (digits n.toNat) = some n.toNat :=
    argument?_digits [] blank_nil n.toNat_lt
  rw [columnOfDeclared_withArgs name hw (solid_digits _) (flat_digits _),
    splitAt_of_not_mem (comma_not_mem_digits _), List.map_singleton, harg]
  show (if isNumericBase (upper w) then _ else _) = _
  rw [hbase, if_neg (by decide), UInt32.ofNat_toNat]

/-- Two numbers as they stand between parentheses, with a comma and a blank between
    them. -/
def pairText (p s : Nat) : List Char := digits p ++ ',' :: ' ' :: digits s

theorem flat_pairText (p s : Nat) : Flat (pairText p s) := by
  intro c hc
  simp only [pairText, List.mem_append, List.mem_cons] at hc
  rcases hc with hc | rfl | rfl | hc
  · exact flat_digits p c hc
  · decide
  · decide
  · exact flat_digits s c hc

/-- **TWO ARGUMENTS** are precision and scale.  Both fit into a byte, so neither is
    dropped. -/
theorem columnOfDeclared_fixedPoint (name : List Char) {w : List Char} (hw : Word w)
    (p s : UInt8) :
    columnOfDeclared name (withArgs w (pairText p.toNat s.toNat))
      = { bare name (upper w) with precision := some p, scale := some s } := by
  have hsolid : Solid (pairText p.toNat s.toNat) := by
    obtain ⟨c, rest, hc, hblank⟩ := (solid_digits p.toNat).head
    obtain ⟨init, d, hd, hblank'⟩ := (solid_digits s.toNat).last
    exact ⟨⟨c, rest ++ ',' :: ' ' :: digits s.toNat, by simp [pairText, hc], hblank⟩,
      digits p.toNat ++ ',' :: ' ' :: init, d, by simp [pairText, hd], hblank'⟩
  -- the second number has the blank after the comma before it
  have hp : p.toNat < 256 := p.toNat_lt
  have hs : s.toNat < 256 := s.toNat_lt
  have hfirst : argument? (digits p.toNat) = some p.toNat :=
    argument?_digits [] blank_nil (by omega)
  have hsecond : argument? (' ' :: digits s.toNat) = some s.toNat :=
    argument?_digits [' '] (fun c hc => by simp_all; rfl) (by omega)
  have hspace : ',' ∉ ' ' :: digits s.toNat := by
    simpa using comma_not_mem_digits s.toNat
  rw [columnOfDeclared_withArgs name hw hsolid (flat_pairText _ _), pairText,
    splitAt_append_cons (comma_not_mem_digits _), splitAt_of_not_mem hspace, List.map_cons,
    List.map_singleton, hfirst, hsecond]
  show ({ bare name (upper w) with precision := byte? p.toNat, scale := byte? s.toNat } :
    ColumnInfo) = _
  rw [byte?, if_pos hp, byte?, if_pos hs, UInt8.ofNat_toNat, UInt8.ofNat_toNat]

end Gridbase.Schema
