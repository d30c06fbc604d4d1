import Gridbase.Dialect
import Gridbase.Proofs.Schema.Declared

/-! # Forms of declared types

    The declared type of a designed column has one of four forms, and all that a
    reader does with it follows by cases on `TypeForm`: it is level and solid, its
    end is found, its length or its precision and scale come back, and it is
    QUIET: no flag of a column begins inside it and ends in the words after it. -/

namespace Gridbase

open Gridbase.Text Gridbase.Schema

/-! ## Flags -/

/-- The flags that are looked for in a definition, as the reader spells them. -/
def flagNeedles : List (List Char) :=
  ["PRIMARY KEY".toList, "NOT NULL".toList, "AUTOINCREMENT".toList]

/-- A search for a flag passes over the text and the blank after it. -/
def Quiet (cs : List Char) : Prop :=
  ∀ needle ∈ flagNeedles, ∀ rest,
    occursIn needle (cs ++ ' ' :: rest) = occursIn needle (' ' :: rest)

/-- A text is quiet if no search ends in it. -/
theorem quiet_of_word {w : List Char}
    (h : ∀ rest, (occursIn "PRIMARY KEY".toList (w ++ ' ' :: rest)
        = occursIn "PRIMARY KEY".toList (' ' :: rest))
      ∧ (occursIn "NOT NULL".toList (w ++ ' ' :: rest) = occursIn "NOT NULL".toList (' ' :: rest))
      ∧ (occursIn "AUTOINCREMENT".toList (w ++ ' ' :: rest)
        = occursIn "AUTOINCREMENT".toList (' ' :: rest))) : Quiet w := by
  intro needle hneedle rest
  obtain ⟨hkey, hnull, hgen⟩ := h rest
  simp only [flagNeedles, List.mem_cons, List.not_mem_nil, or_false] at hneedle
  rcases hneedle with rfl | rfl | rfl
  · exact hkey
  · exact hnull
  · exact hgen

/-- The letters that each flag has one of. -/
theorem flag_has_letter {needle : List Char} (h : needle ∈ flagNeedles) :
    'Y' ∈ needle ∨ 'O' ∈ needle := by
  simp only [flagNeedles, List.mem_cons, List.not_mem_nil, or_false] at h
  rcases h with rfl | rfl | rfl
  · exact Or.inl (by decide)
  · exact Or.inr (by decide)
  · exact Or.inr (by decide)

/-- No flag has a parenthesis. -/
theorem flag_flat {needle : List Char} (h : needle ∈ flagNeedles) :
    '(' ∉ needle ∧ ')' ∉ needle := by
  simp only [flagNeedles, List.mem_cons, List.not_mem_nil, or_false] at h
  rcases h with rfl | rfl | rfl <;> decide

/-- Arguments in parentheses keep the text quiet if no flag stands in the word or
    between the parentheses. -/
theorem quiet_withArgs {w args : List Char}
    (hw : ∀ needle ∈ flagNeedles, occursIn needle w = false) (hargs : 'Y' ∉ args ∧ 'O' ∉ args) :
    Quiet (withArgs w args) := by
  intro needle hneedle rest
  obtain ⟨hopen, hclose⟩ := flag_flat hneedle
  -- arguments are digits or `MAX`, and every flag has a letter that these lack
  have hin : occursIn needle args = false := by
    rcases flag_has_letter hneedle with hY | hO
    · exact occursIn_eq_false hY args hargs.1
    · exact occursIn_eq_false hO args hargs.2
  have htext : withArgs w args ++ ' ' :: rest = w ++ '(' :: (args ++ ')' :: ' ' :: rest) := by
    simp [withArgs]
  rw [htext, occursIn_append_cons hopen, occursIn_append_cons hclose, hw needle hneedle, hin]
  rfl

/-! ## Forms of declared types -/

/-- The forms of the declared type of a column: a word, a word with a length, a text
    without a bound, or a number with precision and scale.  Each says what the reader
    needs to know of it. -/
inductive TypeForm (c : ColumnDesign) : List Char → Prop
  | word {w : List Char} (hw : Word w) (hupper : upper w = w) (hquiet : Quiet w)
      (htype : DataType.parse? (String.ofList w) = some c.dataType)
      (hdecimal : c.dataType ≠ .decimal) (hlength : c.dataType = .string → c.length = none) :
      TypeForm c w
  | sized {w : List Char} {n : UInt32} (hw : Word w) (hupper : upper w = w)
      (hquiet : ∀ needle ∈ flagNeedles, occursIn needle w = false)
      (htype : DataType.parse? (String.ofList w) = some .string)
      (hbase : isNumericBase w = false) (hstring : c.dataType = .string)
      (hlength : c.length = some n) :
      TypeForm c (withArgs w (digits n.toNat))
  | unbounded (hstring : c.dataType = .string) (hlength : c.length = none) :
      TypeForm c (withArgs "NVARCHAR".toList "MAX".toList)
  | fixedPoint {w : List Char} (hw : Word w) (hupper : upper w = w)
      (hquiet : ∀ needle ∈ flagNeedles, occursIn needle w = false)
      (htype : DataType.parse? (String.ofList w) = some .decimal)
      (hdecimal : c.dataType = .decimal) :
      TypeForm c (withArgs w (pairText (c.precision.getD Dialect.defaultPrecision).toNat
        (c.scale.getD Dialect.defaultScale).toNat))

namespace ColumnDesign

/-- A type that is one word. -/
theorem typeForm_word {c : ColumnDesign} {word : String}
    (hword : word ∈ ["TEXT", "INTEGER", "INT", "DATETIME", "TIMESTAMP", "BOOLEAN", "BIT"])
    (htype : DataType.parse? word = some c.dataType) (hdecimal : c.dataType ≠ .decimal)
    (hlength : c.dataType = .string → c.length = none) : TypeForm c word.toList := by
  have hparse : DataType.parse? (String.ofList word.toList) = some c.dataType := by
    rw [String.ofList_toList]
    exact htype
  simp only [List.mem_cons, List.not_mem_nil, or_false] at hword
  rcases hword with rfl | rfl | rfl | rfl | rfl | rfl | rfl <;>
    exact .word (by decide) (by decide) (quiet_of_word fun rest => ⟨rfl, rfl, rfl⟩) hparse
      hdecimal hlength

/-- The type of text, of bounded length or not. -/
theorem typeForm_sized {c : ColumnDesign} (hc : c.dataType = .string) {word unbounded : String}
    (hword : word = "VARCHAR" ∨ word = "NVARCHAR")
    (hunbounded : c.length = none → TypeForm c unbounded.toList) :
    TypeForm c (Dialect.sized word unbounded c.length).toList := by
  cases hn : c.length with
  | none => exact hunbounded hn
  | some n =>
      have htext : (Dialect.sized word unbounded (some n)).toList
          = withArgs word.toList (digits n.toNat) := by
        simp [Dialect.sized, Text.ofNat, withArgs]
      rw [htext]
      rcases hword with rfl | rfl
      · exact .sized (by decide) (by decide) (by decide) (by decide +kernel) (by decide) hc hn
      · exact .sized (by decide) (by decide) (by decide) (by decide +kernel) (by decide) hc hn

/-- The type of a decimal. -/
theorem typeForm_fixedPoint {c : ColumnDesign} (hc : c.dataType = .decimal) {word : String}
    (hword : word = "DECIMAL" ∨ word = "NUMERIC") :
    TypeForm c (Dialect.fixedPoint word c).toList := by
  have htext : (Dialect.fixedPoint word c).toList
      = withArgs word.toList (pairText (c.precision.getD Dialect.defaultPrecision).toNat
        (c.scale.getD Dialect.defaultScale).toNat) := by
    simp [Dialect.fixedPoint, Text.ofNat, withArgs, pairText]
  rw [htext]
  rcases hword with rfl | rfl
  · exact .fixedPoint (by decide) (by decide) (by decide) (by decide +kernel) hc
  · exact .fixedPoint (by decide) (by decide) (by decide) (by decide +kernel) hc

/-- **EVERY DECLARED TYPE HAS A FORM**, in every dialect.  The dialects differ in the
    words, not in the forms. -/
theorem typeForm (d : Dialect) (c : ColumnDesign) : TypeForm c (d.columnType c).toList := by
  -- each type of each dialect has one of four forms
  cases hc : c.dataType with
  | string =>
      have htext (hn : c.length = none) : TypeForm c "TEXT".toList :=
        typeForm_word (by decide) (by rw [hc]; decide +kernel) (by simp [hc]) fun _ => hn
      have hmax (hn : c.length = none) : TypeForm c "NVARCHAR(MAX)".toList :=
        TypeForm.unbounded hc hn
      cases d with
      | sqlite => simpa only [Dialect.columnType, hc] using typeForm_sized hc (.inl rfl) htext
      | sqlServer =>
          simpa only [Dialect.columnType, hc] using typeForm_sized hc (.inr rfl) hmax
      | postgres => simpa only [Dialect.columnType, hc] using typeForm_sized hc (.inl rfl) htext
  | decimal =>
      cases d with
      | sqlite => simpa only [Dialect.columnType, hc] using typeForm_fixedPoint hc (.inl rfl)
      | sqlServer => simpa only [Dialect.columnType, hc] using typeForm_fixedPoint hc (.inl rfl)
      | postgres => simpa only [Dialect.columnType, hc] using typeForm_fixedPoint hc (.inr rfl)
  | integer =>
      cases d <;> simp only [Dialect.columnType, hc] <;>
        exact typeForm_word (by decide) (by rw [hc]; decide +kernel) (by simp [hc]) (by simp [hc])
  | dateTime =>
      cases d <;> simp only [Dialect.columnType, hc] <;>
        exact typeForm_word (by decide) (by rw [hc]; decide +kernel) (by simp [hc]) (by simp [hc])
  | boolean =>
      cases d <;> simp only [Dialect.columnType, hc] <;>
        exact typeForm_word (by decide) (by rw [hc]; decide +kernel) (by simp [hc]) (by simp [hc])

end ColumnDesign

/-! ## What the reader does with a declared type -/

namespace TypeForm

variable {c : ColumnDesign} {cs : List Char}

theorem level (h : TypeForm c cs) : Level cs := by
  cases h with
  | word hw => exact hw.level
  | sized hw => exact level_withArgs hw (flat_digits _)
  | unbounded => exact level_withArgs (by decide) (by decide)
  | fixedPoint hw => exact level_withArgs hw (flat_pairText _ _)

theorem solid (h : TypeForm c cs) : Solid cs := by
  cases h with
  | word hw => exact hw.solid
  | sized hw => exact solid_withArgs hw _
  | unbounded => exact solid_withArgs (by decide) _
  | fixedPoint hw => exact solid_withArgs hw _

/-- The scanner finds the end of the type. -/
theorem declaredType_eq (h : TypeForm c cs) {rest : List Char}
    (hrest : startsWith ['('] (trimStart rest) = false) :
    declaredType 0 (cs ++ ' ' :: rest) = cs := by
  cases h with
  | word hw => exact declaredType_word hw hrest
  | sized hw => exact declaredType_withArgs hw (flat_digits _) _
  | unbounded => exact declaredType_withArgs (by decide) (by decide) _
  | fixedPoint hw => exact declaredType_withArgs hw (flat_pairText _ _) _

theorem upper_withArgs (w args : List Char) :
    upper (withArgs w args) = withArgs (upper w) (upper args) := by
  simp [withArgs]

/-- No flag is found in a type.  In the forms with arguments, the digits and the
    parenthesis keep the two sides apart. -/
theorem quiet (h : TypeForm c cs) : Quiet (upper cs) := by
  cases h with
  | word _ hupper hquiet =>
      rw [hupper]
      exact hquiet
  | sized _ hupper hquiet =>
      rw [upper_withArgs, hupper, upper_digits]
      exact quiet_withArgs hquiet ⟨not_mem_digits rfl _, not_mem_digits rfl _⟩
  | unbounded =>
      rw [upper_withArgs]
      exact quiet_withArgs (by decide) (by decide)
  | fixedPoint _ hupper hquiet =>
      have hpair (p s : Nat) : upper (pairText p s) = pairText p s := by
        simp [pairText, upper_digits]
      -- a pair has digits, a comma and a blank, so none of the letters
      have hmem (p s : Nat) {x : Char} (hx : x.isDigit = false) (hcomma : x ≠ ',')
          (hspace : x ≠ ' ') : x ∉ pairText p s := by
        simp [pairText, not_mem_digits hx, hcomma, hspace]
      rw [upper_withArgs, hupper, hpair]
      exact quiet_withArgs hquiet
        ⟨hmem _ _ rfl (by decide) (by decide), hmem _ _ rfl (by decide) (by decide)⟩

/-- The base of the type means the type of the column. -/
theorem parse_base (h : TypeForm c cs) :
    DataType.parse? (String.ofList (cs.takeWhile (· != '('))) = some c.dataType := by
  cases h with
  | word hw _ _ htype =>
      rw [takeWhile_word hw]
      exact htype
  | sized hw _ _ htype _ hstring =>
      rw [takeWhile_withArgs hw, hstring]
      exact htype
  | unbounded hstring =>
      rw [hstring]
      decide +kernel
  | fixedPoint hw _ _ htype hdecimal =>
      rw [takeWhile_withArgs hw, hdecimal]
      exact htype

end TypeForm

namespace ColumnDesign

/-- What a declared type says about its column.  It says nothing of keys, so the column
    is nullable so far. -/
def typeInfo (c : ColumnDesign) (declared : List Char) : ColumnInfo where
  name := c.name
  dataType := String.ofList (declared.takeWhile (· != '('))
  length := if c.dataType = .string then c.length else none
  precision :=
    if c.dataType = .decimal then some (c.precision.getD Dialect.defaultPrecision) else none
  scale := if c.dataType = .decimal then some (c.scale.getD Dialect.defaultScale) else none
  isNullable := true

/-- **A DECLARED TYPE IS READ BACK** with its length, or its precision and scale.  A
    text without a bound has an argument that is no number, and so no length. -/
theorem columnOfDeclared_typeForm {c : ColumnDesign} {cs : List Char} (h : TypeForm c cs) :
    columnOfDeclared c.name.toList cs = c.typeInfo cs := by
  -- the reader goes by the form: a word, a length, text of any length, two arguments
  cases h with
  | word hw hupper _ _ hdecimal hlength =>
      rw [columnOfDeclared_word _ hw, hupper, typeInfo, takeWhile_word hw, if_neg hdecimal,
        if_neg hdecimal, bare, String.ofList_toList]
      by_cases hstring : c.dataType = .string
      · rw [if_pos hstring, hlength hstring]
      · rw [if_neg hstring]
  | sized hw hupper _ _ hbase hstring hlength =>
      rw [columnOfDeclared_sized _ hw (by rw [hupper]; exact hbase), hupper, typeInfo,
        takeWhile_withArgs hw, hstring, hlength, bare, String.ofList_toList]
      rfl
  | unbounded hstring hlength =>
      rw [typeInfo, hstring, hlength, columnOfDeclared_withArgs _ (by decide)
        (show Word "MAX".toList by decide).solid (by decide)]
      show bare c.name.toList _ = _
      rw [bare, String.ofList_toList]
      rfl
  | fixedPoint hw hupper _ _ hdecimal =>
      rw [columnOfDeclared_fixedPoint _ hw, hupper, typeInfo, takeWhile_withArgs hw, hdecimal,
        bare, String.ofList_toList]
      rfl

end ColumnDesign

end Gridbase
