import Gridbase.Proofs.Schema.RoundTrip
import Gridbase.Proofs.Statement.Defaults

/-! # Built tables, read back

    A statement of column clauses is read by `readColumns` as well, but a clause may
    end with a default, and the reader knows nothing of literals.

    * A default that opens and closes its parentheses around its commas stays in its
      clause, so that there is one column for each clause (`readColumns_text`).
    * The flags of a column are those of its clause and those that its default
      MENTIONS (`ColumnClause.readBack`).

    Every clause is read back as it was written exactly when no default mentions a
    flag that its clause lacks (`ColumnClause.Misleads`). -/

namespace Gridbase

open Gridbase.Text Gridbase.Schema

/-! ## Defaults -/

/-- A flag lacks the first letter of `DEFAULT` and the quote, has characters, and does not
    stand in that word. -/
theorem flag_chars {flag : List Char} (h : flag ∈ flagNeedles) :
    'D' ∉ flag ∧ '\'' ∉ flag ∧ flag ≠ [] ∧ occursIn flag "EFAULT ".toList = false := by
  simp only [flagNeedles, List.mem_cons, List.not_mem_nil, or_false] at h
  rcases h with rfl | rfl | rfl <;> decide

namespace Value

/-- The text of the value mentions a flag; only texts do.  The reader looks for a flag
    in upper case, so the spelling does not count. -/
def mentions (flag : List Char) : Value → Bool
  | .text s => occursIn flag (upper s.toList)
  | _ => false

/-- The literal of the value is nowhere cut and closes what it opens.  Quotes do not
    protect a text from the reader. -/
def KeepsDepth : Value → Prop
  | .text s => depthPast 0 s.toList = some 0
  | _ => True

/-- The characters of all literals but texts.  No flag can be spelled with them, and no
    comma or parenthesis is among them. -/
def literalMarks : List Char := numerals ++ clockMarks ++ hexDigits ++ ['N', 'U', 'L', 'X', '\'']

theorem literal_subset {v : Value} (h : ∀ s, v ≠ .text s) : v.literal.toList ⊆ literalMarks := by
  cases v with
  | null => decide
  | bool b => cases b <;> decide
  | int n => exact List.Subset.trans (ofInt_subset n.toInt) (by decide)
  | float x => exact List.Subset.trans x.plainText_numeral.2 (by decide)
  | decimal x => exact List.Subset.trans x.text_numeral.2 (by decide)
  | text s => exact absurd rfl (h s)
  | moment m =>
      rw [literal, String.toList_append, String.toList_append]
      exact List.append_subset.mpr ⟨List.append_subset.mpr ⟨by decide,
        List.Subset.trans m.text_subset (by decide)⟩, by decide⟩
  | blob bytes =>
      rw [literal, String.toList_append, String.toList_append]
      exact List.append_subset.mpr ⟨List.append_subset.mpr ⟨by decide,
        List.Subset.trans (hexText_subset bytes) (by decide)⟩, by decide⟩

theorem toList_literal_text (s : String) :
    (literal (.text s)).toList = enclosed '\'' '\'' s.toList := String.toList_ofList

/-- A literal is level if its text keeps the depth. -/
theorem level_literal {v : Value} (h : v.KeepsDepth) : Level v.literal.toList := by
  have hplain : PlainText literalMarks := by decide
  by_cases htext : ∃ s, v = .text s
  · obtain ⟨s, rfl⟩ := htext
    rw [toList_literal_text]
    exact level_of_depthPast ((depthPast_enclosed s.toList 0).trans h)
  · exact level_of_plain fun c hc => hplain c (literal_subset (fun s hs => htext ⟨s, hs⟩) hc)

/-- A literal ends with a character that is not blank.  So trimming a clause leaves its
    default alone. -/
theorem literal_last (v : Value) : ∃ init e, v.literal.toList = init ++ [e] ∧ isBlank e = false := by
  have hnumeral {cs : List Char} (h : cs ≠ [] ∧ cs ⊆ numerals) :
      ∃ init e, cs = init ++ [e] ∧ isBlank e = false := by
    have hblank : ∀ c ∈ numerals, isBlank c = false := by
      have hall : numerals.all (fun c => !isBlank c) = true := by decide
      simpa using hall
    exact (solid_of_no_blank h.1 fun c hc => hblank c (h.2 hc)).last
  -- numbers end in a digit or a letter, everything else in a quote
  cases v with
  | null => exact ⟨['N', 'U', 'L'], 'L', rfl, rfl⟩
  | bool b => cases b <;> exact hnumeral (by decide)
  | int n => exact hnumeral ⟨ofInt_ne_nil n.toInt, ofInt_subset n.toInt⟩
  | float x => exact hnumeral x.plainText_numeral
  | decimal x => exact hnumeral x.text_numeral
  | text s => exact ⟨_, '\'', toList_literal_text s, rfl⟩
  | moment m =>
      rw [literal, String.toList_append]
      exact ⟨_, '\'', rfl, rfl⟩
  | blob bytes =>
      rw [literal, String.toList_append]
      exact ⟨_, '\'', rfl, rfl⟩

/-- **A FLAG IN A DEFAULT** is found exactly when the text of the default mentions it.
    Quotes are doubled in the literal, and no flag has one. -/
theorem occursIn_literal {flag : List Char} (h : flag ∈ flagNeedles) (v : Value) :
    occursIn flag (upper ("EFAULT ".toList ++ v.literal.toList)) = v.mentions flag := by
  by_cases htext : ∃ s, v = .text s
  · obtain ⟨s, rfl⟩ := htext
    obtain ⟨-, hquote, hne, hword⟩ := flag_chars h
    have htext : upper ("EFAULT ".toList ++ enclosed '\'' '\'' s.toList)
        = "EFAULT ".toList ++ '\'' :: (doubleMark '\'' (upper s.toList) ++ '\'' :: []) := by
      rw [upper_append, enclosed, List.cons_append, upper_cons, upper_append, upper_doubleMark]
      rfl
    rw [toList_literal_text, htext, occursIn_append_cons hquote, occursIn_append_cons hquote,
      occursIn_doubleMark hquote hne, occursIn_nil hne, hword, Bool.false_or, Bool.or_false]
    rfl
  · have hnone : v.mentions flag = false := by
      cases v with
      | text s => exact absurd ⟨s, rfl⟩ htext
      | _ => rfl
    -- every flag has one of two letters, and no other literal has either of them
    have hmarks : ("EFAULT ".toList ++ literalMarks).all
        (fun c => c.toUpper ≠ 'Y' ∧ c.toUpper ≠ 'O') = true := by decide
    have hletters : ∀ c ∈ upper ("EFAULT ".toList ++ v.literal.toList), c ≠ 'Y' ∧ c ≠ 'O' := by
      intro c hc
      obtain ⟨x, hx, rfl⟩ := List.mem_map.mp hc
      have hmem : x ∈ "EFAULT ".toList ++ literalMarks :=
        List.append_subset.mpr ⟨List.subset_append_left _ _,
          List.Subset.trans (literal_subset fun s hs => htext ⟨s, hs⟩)
            (List.subset_append_right _ _)⟩ hx
      exact of_decide_eq_true (List.all_eq_true.mp hmarks x hmem)
    rw [hnone]
    rcases flag_has_letter h with hY | hO
    · exact occursIn_eq_false hY _ fun hm => (hletters _ hm).1 rfl
    · exact occursIn_eq_false hO _ fun hm => (hletters _ hm).2 rfl

end Value

/-! ## Clauses -/

namespace ColumnClause

/-- The words for key and NULL, each after a blank.  The word for a generated value
    stands only behind those for a key. -/
def marks (c : ColumnClause) : List Char :=
  (if c.primaryKey then
      " PRIMARY KEY".toList ++ (if c.autoIncrement then " AUTOINCREMENT".toList else [])
    else [])
    ++ (if c.nullable then [] else " NOT NULL".toList)

/-- What stands in a clause after the storage class: the marks, and the default if there
    is one. -/
def ending (c : ColumnClause) : List Char := c.marks ++ (c.tail .sqlite).toList

theorem toList_text (c : ColumnClause) :
    (c.text .sqlite).toList
      = c.name.toList ++ ' ' :: ((Dialect.sqlite.storageType c.storage).toList ++ c.ending) := by
  have hfront : (c.front .sqlite).toList
      = c.name.toList ++ ' ' :: ((Dialect.sqlite.storageType c.storage).toList ++ c.marks) := by
    rw [front, toList_joinWith_cons, keyWords, marks]
    cases c.primaryKey <;> cases c.autoIncrement <;> cases c.nullable <;>
      simp [Dialect.generatedMark]
  rw [text_eq, String.toList_append, hfront, ending]
  simp

/-- A clause with given flags; its marks depend on nothing else. -/
def flagged (nullable key auto : Bool) : ColumnClause where
  name := ""
  storage := .integer
  nullable := nullable
  primaryKey := key
  autoIncrement := auto

/-- **THE FLAGS IN THE MARKS** are those that the clause sets, with or without a blank
    after the marks. -/
theorem occursIn_marks (c : ColumnClause) {pad : List Char} (hpad : pad = [] ∨ pad = [' ']) :
    occursIn "PRIMARY KEY".toList (upper c.marks ++ pad) = c.primaryKey
      ∧ occursIn "NOT NULL".toList (upper c.marks ++ pad) = !c.nullable
      ∧ occursIn "AUTOINCREMENT".toList (upper c.marks ++ pad)
        = (c.primaryKey && c.autoIncrement) := by
  have hflags : ∀ nullable key auto : Bool, ∀ pad ∈ [[], [' ']],
      occursIn "PRIMARY KEY".toList (upper (flagged nullable key auto).marks ++ pad) = key
        ∧ occursIn "NOT NULL".toList (upper (flagged nullable key auto).marks ++ pad) = !nullable
        ∧ occursIn "AUTOINCREMENT".toList (upper (flagged nullable key auto).marks ++ pad)
          = (key && auto) := by decide +kernel
  exact hflags c.nullable c.primaryKey c.autoIncrement pad (by simpa using hpad)

/-- What follows the storage class is nothing, or a blank and a letter. -/
theorem ending_eq (c : ColumnClause) :
    c.ending = [] ∨ ∃ rest, c.ending = ' ' :: rest
      ∧ startsWith ['('] (trimStart rest) = false := by
  rw [ending, marks, tail]
  cases c.primaryKey with
  | true => exact Or.inr ⟨_, rfl, rfl⟩
  | false =>
      cases c.nullable with
      | false => exact Or.inr ⟨_, rfl, rfl⟩
      | true =>
          cases c.defaultValue with
          | none => exact Or.inl rfl
          | some v =>
              rw [String.toList_append]
              exact Or.inr ⟨_, rfl, rfl⟩

/-- The storage class is one word in upper case, and no flag begins in it. -/
theorem storage_word (c : StorageClass) :
    Word (Dialect.sqlite.storageType c).toList
      ∧ upper (Dialect.sqlite.storageType c).toList = (Dialect.sqlite.storageType c).toList
      ∧ Quiet (Dialect.sqlite.storageType c).toList
      ∧ ∀ flag ∈ flagNeedles, occursIn flag (Dialect.sqlite.storageType c).toList = false := by
  refine ⟨?_, ?_, ?_, ?_⟩
  · cases c <;> decide
  · cases c <;> decide
  · cases c <;> exact quiet_of_word fun rest => ⟨rfl, rfl, rfl⟩
  · cases c <;> decide

/-- Flags are looked for after the storage class. -/
theorem occursIn_storage (c : ColumnClause) {flag : List Char} (h : flag ∈ flagNeedles) :
    occursIn flag (upper (' ' :: ((Dialect.sqlite.storageType c.storage).toList ++ c.ending)))
      = occursIn flag (upper c.ending) := by
  obtain ⟨-, hupper, hquiet, hnone⟩ := storage_word c.storage
  have hblank : ∀ cs, occursIn flag (' ' :: cs) = occursIn flag cs := by
    intro cs
    simp only [flagNeedles, List.mem_cons, List.not_mem_nil, or_false] at h
    rcases h with rfl | rfl | rfl <;> rfl
  rw [upper_cons, upper_append, hupper]
  show occursIn flag (' ' :: ((Dialect.sqlite.storageType c.storage).toList ++ _)) = _
  rw [hblank]
  rcases ending_eq c with hnil | ⟨rest, hrest, -⟩
  · rw [hnil, upper_nil, List.append_nil, hnone flag h,
      occursIn_nil (flag_chars h).2.2.1]
  · rw [hrest, upper_cons]
    exact hquiet flag h _

/-- The default of the clause mentions a flag. -/
def defaultMentions (c : ColumnClause) (flag : String) : Bool :=
  c.defaultValue.any fun v => v.mentions flag.toList

/-- **THE FLAGS OF A CLAUSE** are those that it sets and those that its default mentions. -/
theorem occursIn_ending (c : ColumnClause) :
    occursIn "PRIMARY KEY".toList (upper c.ending)
        = (c.primaryKey || c.defaultMentions "PRIMARY KEY")
      ∧ occursIn "NOT NULL".toList (upper c.ending)
        = (!c.nullable || c.defaultMentions "NOT NULL")
      ∧ occursIn "AUTOINCREMENT".toList (upper c.ending)
        = ((c.primaryKey && c.autoIncrement) || c.defaultMentions "AUTOINCREMENT") := by
  cases hdefault : c.defaultValue with
  | none =>
      have hending : upper c.ending = upper c.marks ++ [] := by
        rw [ending, tail, hdefault, upper_append]
        rfl
      have hnone (flag : String) : c.defaultMentions flag = false := by
        rw [defaultMentions, hdefault]
        rfl
      simp only [hending, hnone, Bool.or_false]
      exact occursIn_marks c (Or.inl rfl)
  | some v =>
      obtain ⟨hkey, hnull, hgen⟩ := occursIn_marks c (Or.inr rfl)
      -- no flag has the first letter of DEFAULT
      have hending : upper c.ending
          = (upper c.marks ++ [' ']) ++ 'D' :: upper ("EFAULT ".toList ++ v.literal.toList) := by
        rw [ending, tail, hdefault, upper_append, String.toList_append, upper_append, upper_append]
        simp [Dialect.literal]
      have hsome (flag : String) : c.defaultMentions flag = v.mentions flag.toList := by
        rw [defaultMentions, hdefault]
        rfl
      have hsplit {flag : List Char} (h : flag ∈ flagNeedles) : occursIn flag (upper c.ending)
          = (occursIn flag (upper c.marks ++ [' ']) || v.mentions flag) := by
        obtain ⟨hletter, -⟩ := flag_chars h
        rw [hending, occursIn_append_cons hletter, Value.occursIn_literal h]
      rw [hsplit (by simp [flagNeedles]), hsplit (by simp [flagNeedles]),
        hsplit (by simp [flagNeedles]), hkey, hnull, hgen, hsome, hsome, hsome]
      exact ⟨rfl, rfl, rfl⟩

/-- The default of the clause, if there is one, keeps the depth. -/
def KeepsDepth (c : ColumnClause) : Prop := ∀ v, c.defaultValue = some v → v.KeepsDepth

/-- What follows the storage class is level, and ends with a character that is not
    blank if there is any. -/
theorem ending_level_last {c : ColumnClause} (h : c.KeepsDepth) :
    Level c.ending ∧ (c.ending = [] ∨ ∃ init e, c.ending = init ++ [e] ∧ isBlank e = false) := by
  -- the marks are words for any choice of the three flags
  have hmarks : ∀ nullable key auto : Bool, PlainText (flagged nullable key auto).marks
      ∧ (flagged nullable key auto).marks.getLast?.all (fun e => !isBlank e) = true := by decide
  obtain ⟨hplain, hlast⟩ := hmarks c.nullable c.primaryKey c.autoIncrement
  have hlevel : Level c.marks := level_of_plain hplain
  rw [ending, tail]
  cases hdefault : c.defaultValue with
  | none =>
      rw [show "".toList = [] from rfl, List.append_nil]
      refine ⟨hlevel, ?_⟩
      rcases List.eq_nil_or_concat c.marks with hnil | ⟨init, e, hinit⟩
      · exact Or.inl hnil
      · have hblank : c.marks.getLast?.all (fun e => !isBlank e) = true := hlast
        rw [List.concat_eq_append] at hinit
        rw [hinit, List.getLast?_concat] at hblank
        exact Or.inr ⟨init, e, hinit, by simpa using hblank⟩
  | some v =>
      obtain ⟨init, e, hlit, hblank⟩ := v.literal_last
      rw [String.toList_append]
      refine ⟨level_append hlevel (level_append (level_of_plain (by decide))
        (Value.level_literal (h v hdefault))),
        Or.inr ⟨c.marks ++ (" DEFAULT ".toList ++ init), e, ?_, hblank⟩⟩
      show c.marks ++ (" DEFAULT ".toList ++ v.literal.toList) = _
      rw [hlit]
      simp

/-- A clause whose default keeps the depth is level and solid.  Cutting gives it back as
    a piece, and trimming leaves that as it is. -/
theorem text_level_solid {c : ColumnClause} (h : Dialect.sqlite.isValidName c.name = true)
    (hdepth : c.KeepsDepth) :
    Level (c.text .sqlite).toList ∧ Solid (c.text .sqlite).toList := by
  obtain ⟨hword, -⟩ := storage_word c.storage
  obtain ⟨hlevel, hlast⟩ := ending_level_last hdepth
  -- a name and the blank behind it hold no mark of any kind
  have hname : PlainText (c.name.toList ++ [' ']) := by
    intro x hx
    rcases List.mem_append.mp hx with hx | hx
    · exact plain_of_class (by decide) (Identifier.isBody_of_mem h hx)
    · rw [List.mem_singleton.mp hx]
      decide
  have htext : (c.text .sqlite).toList = (c.name.toList ++ [' '])
      ++ ((Dialect.sqlite.storageType c.storage).toList ++ c.ending) := by
    rw [toList_text]
    simp
  refine ⟨?_, ?_, ?_⟩
  · rw [htext]
    exact level_append (level_of_plain hname) (level_append hword.level hlevel)
  · obtain ⟨x, rest, hx⟩ := List.exists_cons_of_ne_nil (Identifier.toList_ne_nil h)
    refine ⟨x, rest ++ ' ' :: _, by rw [toList_text, hx, List.cons_append], ?_⟩
    exact Identifier.isBlank_of_isBody
      (Identifier.isBody_of_mem h (by rw [hx]; exact List.mem_cons_self ..))
  · rw [htext]
    rcases hlast with hnil | ⟨init, e, hinit, hblank⟩
    · obtain ⟨init, e, hinit, hblank⟩ := hword.solid.last
      exact ⟨(c.name.toList ++ [' ']) ++ init, e, by rw [hnil, hinit]; simp, hblank⟩
    · exact ⟨(c.name.toList ++ [' ']) ++ ((Dialect.sqlite.storageType c.storage).toList ++ init),
        e, by rw [hinit]; simp, hblank⟩

/-! ## Pieces -/

/-- The column that is read from a clause: a flag is set if the clause sets it, or if
    its default mentions it. -/
def readBack (c : ColumnClause) : ColumnInfo where
  name := c.name
  dataType := Dialect.sqlite.storageType c.storage
  isPrimaryKey := c.primaryKey || c.defaultMentions "PRIMARY KEY"
  isNullable := c.nullable && !c.defaultMentions "NOT NULL"
    && !(c.primaryKey || c.defaultMentions "PRIMARY KEY")
  isAutoIncrementing := (c.primaryKey && c.autoIncrement) || c.defaultMentions "AUTOINCREMENT"

/-- A name without marks ends at the first blank.  A valid name has no blank in it, and
    is written without quotes. -/
theorem splitName_text {c : ColumnClause} (h : Dialect.sqlite.isValidName c.name = true) :
    splitName (c.text .sqlite).toList
      = (c.name.toList, ' ' :: ((Dialect.sqlite.storageType c.storage).toList ++ c.ending)) := by
  have hsolid : ∀ x ∈ c.name.toList, (!isBlank x) = true := by
    intro x hx
    rw [Identifier.isBlank_of_isBody (Identifier.isBody_of_mem h hx)]
    rfl
  have hmark : ∀ x ∈ c.name.toList, ¬ isNameMark x = true := by
    intro x hx hm
    have hbody := Identifier.isBody_of_mem h hx
    simp only [isNameMark, Bool.or_eq_true, decide_eq_true_eq] at hm
    rcases hm with ((rfl | rfl) | rfl) | rfl <;> exact nomatch hbody
  have hunquote : unquote c.name.toList = c.name.toList := by
    rw [unquote, List.dropWhile_eq_self_iff.mpr fun _ => hmark _ (List.getElem_mem _),
      List.dropWhile_eq_self_iff.mpr fun _ => hmark _ (List.mem_reverse.mp (List.getElem_mem _)),
      List.reverse_reverse]
  have hbare : splitBareName (c.text .sqlite).toList
      = (c.name.toList, ' ' :: ((Dialect.sqlite.storageType c.storage).toList ++ c.ending)) := by
    rw [splitBareName, toList_text, List.takeWhile_append_of_pos hsolid,
      List.takeWhile_cons_of_neg (by decide), List.append_nil, hunquote,
      List.dropWhile_append_of_pos hsolid, List.dropWhile_cons_of_neg (by decide)]
  obtain ⟨x, rest, hx⟩ := List.exists_cons_of_ne_nil (Identifier.toList_ne_nil h)
  -- a valid name does not begin with a mark, so that it ends at the blank
  have hclosing : closingMark? x = none := by
    have hbody := Identifier.isBody_of_mem h (show x ∈ c.name.toList by rw [hx]; simp)
    rw [closingMark?.eq_def]
    split
    · exact nomatch hbody
    · exact nomatch hbody
    · exact nomatch hbody
    · rfl
  rw [← hbare, toList_text, hx, List.cons_append]
  dsimp only [splitName]
  rw [hclosing]

/-- The type of a clause ends before its other words. -/
theorem declaredType_storage (c : ColumnClause) :
    declaredType 0 ((Dialect.sqlite.storageType c.storage).toList ++ c.ending)
      = (Dialect.sqlite.storageType c.storage).toList := by
  obtain ⟨hword, -⟩ := storage_word c.storage
  rcases ending_eq c with hnil | ⟨rest, hrest, hstart⟩
  · rw [hnil, declaredType_word_append hword.2]
    exact List.append_nil _
  · rw [hrest, declaredType_word hword hstart]

/-- **A CLAUSE IS READ BACK** with the flags that its default mentions. -/
theorem columnOfPiece_text {c : ColumnClause} (h : Dialect.sqlite.isValidName c.name = true) :
    columnOfPiece (c.text .sqlite).toList = c.readBack := by
  obtain ⟨hkey, hnull, hgen⟩ := occursIn_ending c
  obtain ⟨hword, hupper, -⟩ := storage_word c.storage
  have htrim : trimStart (' ' :: ((Dialect.sqlite.storageType c.storage).toList ++ c.ending))
      = (Dialect.sqlite.storageType c.storage).toList ++ c.ending := by
    obtain ⟨x, rest, hx, hblank⟩ := hword.solid.head
    rw [trimStart, List.dropWhile_cons_of_pos (by decide), hx, List.cons_append,
      List.dropWhile_cons_of_neg (by simp [hblank])]
  rw [columnOfPiece, splitName_text h]
  show ({ columnOfDeclared _ (declaredType 0 (trimStart _)) with
    isPrimaryKey := _, isNullable := _, isAutoIncrementing := _ } : ColumnInfo) = _
  rw [htrim, declaredType_storage, columnOfDeclared_word _ hword, hupper, bare,
    String.ofList_toList, String.ofList_toList, occursIn_storage c (by simp [flagNeedles]),
    occursIn_storage c (by simp [flagNeedles]), occursIn_storage c (by simp [flagNeedles]),
    hkey, hnull, hgen, Bool.not_or, Bool.not_not]
  rfl

/-- A valid name is no word that begins a constraint, so a clause is none.  Those words
    are keywords, which no valid name is. -/
theorem isConstraint_text {c : ColumnClause} (h : Dialect.sqlite.isValidName c.name = true) :
    isConstraint (c.text .sqlite).toList = false := by
  have hsolid : ∀ x ∈ c.name.toList, (!isBlank x) = true := by
    intro x hx
    rw [Identifier.isBlank_of_isBody (Identifier.isBody_of_mem h hx)]
    rfl
  have hopen : ∀ x ∈ upper c.name.toList, (x != '(') = true := by
    intro x hx
    obtain ⟨y, hy, rfl⟩ := List.mem_map.mp hx
    refine bne_iff_ne.mpr (toUpper_ne (by decide) ?_)
    rintro rfl
    exact Identifier.not_mem_of_isValid h rfl hy
  -- the first word of the clause is the name, which no constraint word is
  have hfirst : (upper ((c.text .sqlite).toList.takeWhile fun x => !isBlank x)).takeWhile (· != '(')
      = upper c.name.toList := by
    rw [toList_text, List.takeWhile_append_of_pos hsolid, List.takeWhile_cons_of_neg (by decide),
      List.append_nil, List.takeWhile_eq_self_iff.mpr hopen]
  rw [isConstraint, hfirst, Bool.eq_false_iff]
  intro hword
  simp only [constraintWords, List.contains_iff_mem, List.mem_cons, List.not_mem_nil,
    or_false] at hword
  rcases hword with hw | hw | hw | hw | hw
  all_goals exact Identifier.upper_ne_of_isValid h (by decide) hw

theorem readPiece_text {c : ColumnClause} (h : Dialect.sqlite.isValidName c.name = true)
    {text : List Char} (htext : trim text = (c.text .sqlite).toList) :
    readPiece text = .column c.readBack := by
  have hempty : (c.text .sqlite).toList.isEmpty = false := by
    rw [toList_text]
    simp
  rw [readPiece, htext, hempty, isConstraint_text h]
  show Piece.column (columnOfPiece _) = _
  rw [columnOfPiece_text h]

end ColumnClause

/-! ## Statements -/

namespace CreateTable

/-- The text between the parentheses of a statement. -/
def body (s : CreateTable) : List Char :=
  (',' :: [' ']).intercalate (s.columns.map fun c => (c.text .sqlite).toList)

theorem toList_text_body (s : CreateTable) (table : String) :
    (s.text .sqlite table).toList = (s.head table).toList ++ '(' :: (s.body ++ ')' :: [';']) := by
  show ("CREATE TABLE " ++ (if s.ifNotExists then "IF NOT EXISTS " else "") ++ table
    ++ (" (" ++ joinWith ", " (s.columns.map fun c => c.text .sqlite) ++ ")") ++ ";").toList = _
  simp only [head, body, String.toList_append, toList_joinWith, List.map_map, List.append_assoc]
  rfl

/-- **THE COLUMNS ARE READ BACK**, one for each clause, if the defaults keep the depth.
    The names are valid, so nothing but the defaults could cut a clause. -/
theorem readColumns_text {s : CreateTable} {table : String}
    (htable : Dialect.sqlite.isValidName table = true) (hne : s.columns ≠ [])
    (hnames : ∀ c ∈ s.columns, Dialect.sqlite.isValidName c.name = true)
    (hdepth : ∀ c ∈ s.columns, c.KeepsDepth) :
    readColumns (s.text .sqlite table) = s.columns.map ColumnClause.readBack := by
  have hopen : '(' ∉ (s.head table).toList := fun h => inert_head s htable _ h (by decide)
  have hbody : between? (s.text .sqlite table).toList = some s.body := by
    rw [toList_text_body]
    exact between?_parens hopen (by decide)
  -- every clause is level, so that only the commas between clauses cut
  have hpieces : (splitTopLevel 0 s.body).map trim
      = s.columns.map fun c => (c.text .sqlite).toList := by
    have hgap : Blank [' '] := by decide
    have hcores := trim_splitTopLevel hgap blank_nil blank_nil blank_nil
      (show s.columns.map (fun c => (c.text .sqlite).toList) ≠ [] by simpa using hne)
      (List.forall_mem_map.mpr fun c hc => ColumnClause.text_level_solid (hnames c hc) (hdepth c hc))
    simp only [List.nil_append, List.append_nil, List.map_id'] at hcores
    exact hcores
  exact readColumns_of_pieces hbody hpieces fun c hc _ htrim =>
    ColumnClause.readPiece_text (hnames c hc) htrim

end CreateTable

/-! ## What is read back -/

/-- The column that was read says what its clause says, so no default was taken for a
    flag. -/
structure ColumnClause.ReadsBack (c : ColumnClause) (m : ColumnInfo) : Prop where
  name : m.name = c.name
  dataType : m.dataType = Dialect.sqlite.storageType c.storage
  key : m.isPrimaryKey = c.primaryKey
  nullable : m.isNullable = (c.nullable && !c.primaryKey)
  generated : m.isAutoIncrementing = (c.primaryKey && c.autoIncrement)

/-- The default of a clause mentions a flag that the clause lacks.  A key holds no NULL
    whether this is written or not. -/
inductive ColumnClause.Misleads (c : ColumnClause) : Prop
  | key (h : c.defaultMentions "PRIMARY KEY" = true) (lacks : c.primaryKey = false)
  | notNull (h : c.defaultMentions "NOT NULL" = true)
      (lacks : c.nullable = true ∧ c.primaryKey = false)
  | generated (h : c.defaultMentions "AUTOINCREMENT" = true)
      (lacks : (c.primaryKey && c.autoIncrement) = false)

/-- A clause is read as it was written unless its default misleads.  Each flag is off if
    the default mentions it and the clause does not set it. -/
theorem ColumnClause.readsBack_readBack_iff (c : ColumnClause) :
    c.ReadsBack c.readBack ↔ ¬ c.Misleads := by
  constructor
  · intro h hmisleads
    have hkey : (c.primaryKey || c.defaultMentions "PRIMARY KEY") = c.primaryKey := h.key
    have hnull : (c.nullable && !c.defaultMentions "NOT NULL"
        && !(c.primaryKey || c.defaultMentions "PRIMARY KEY")) = (c.nullable && !c.primaryKey) :=
      h.nullable
    have hgen : ((c.primaryKey && c.autoIncrement) || c.defaultMentions "AUTOINCREMENT")
        = (c.primaryKey && c.autoIncrement) := h.generated
    -- each of the three words spoils one flag, and only where the flag is not set
    cases hmisleads with
    | key hmention hlacks =>
        rw [hmention, hlacks] at hkey
        exact nomatch hkey
    | notNull hmention hlacks =>
        rw [hmention, hlacks.1, hlacks.2] at hnull
        exact nomatch hnull
    | generated hmention hlacks =>
        rw [hmention, hlacks] at hgen
        exact nomatch hgen
  · intro h
    -- name and type are never misread; the three flags are looked at one by one
    refine ⟨rfl, rfl, ?_, ?_, ?_⟩
    · show (c.primaryKey || c.defaultMentions "PRIMARY KEY") = c.primaryKey
      cases hlacks : c.primaryKey with
      | true => rfl
      | false => simpa using fun hmention => h (.key hmention hlacks)
    · show (c.nullable && !c.defaultMentions "NOT NULL"
        && !(c.primaryKey || c.defaultMentions "PRIMARY KEY")) = (c.nullable && !c.primaryKey)
      cases hnull : c.nullable with
      | false => rfl
      | true =>
          cases hlacks : c.primaryKey with
          | true => simp
          | false =>
              have hkey : c.defaultMentions "PRIMARY KEY" = false := by
                simpa using fun hmention => h (.key hmention hlacks)
              have hnot : c.defaultMentions "NOT NULL" = false := by
                simpa using fun hmention => h (.notNull hmention ⟨hnull, hlacks⟩)
              rw [hkey, hnot]
              rfl
    · show ((c.primaryKey && c.autoIncrement) || c.defaultMentions "AUTOINCREMENT")
        = (c.primaryKey && c.autoIncrement)
      cases hlacks : c.primaryKey && c.autoIncrement with
      | true => rfl
      | false => simpa using fun hmention => h (.generated hmention hlacks)

/-- **BUILT TABLES, READ BACK.**  The statement of a valid table with valid columns, whose
    defaults keep the depth of parentheses and commas, is made, and its text has one column
    for each clause, in their order and under their names.  The columns say what the clauses
    say exactly if no default mentions a flag that its clause lacks. -/
theorem CreateTable.readColumns_build {s : CreateTable} {table : String}
    (htable : s.table = some table) (hname : Dialect.sqlite.isValidName table = true)
    (hne : s.columns ≠ []) (hnames : ∀ c ∈ s.columns, Dialect.sqlite.isValidName c.name = true)
    (hdepth : ∀ c ∈ s.columns, c.KeepsDepth) :
    ∃ q : Query, s.build .sqlite = .ok q
      ∧ (readColumns q.sql).map ColumnInfo.name = s.columns.map ColumnClause.name
      ∧ (List.Forall₂ ColumnClause.ReadsBack s.columns (readColumns q.sql)
        ↔ ∀ c ∈ s.columns, ¬ c.Misleads) := by
  have hread : readColumns (Query.plain (s.text .sqlite table)).sql
      = s.columns.map ColumnClause.readBack := readColumns_text hname hne hnames hdepth
  refine ⟨_, build_eq_ok htable hname hne hnames, ?_, ?_⟩
  · rw [hread, List.map_map]
    rfl
  · rw [hread, List.forall₂_map_right_iff, List.forall₂_same]
    exact forall₂_congr fun c _ => c.readsBack_readBack_iff

/-- A table whose defaults hold quotes, commas in parentheses, and a flag that its clause
    lacks. -/
def CreateTable.remarked : CreateTable where
  table := some "remarked"
  columns :=
    [{ name := "id", storage := .integer, primaryKey := true, autoIncrement := true },
      { name := "body", storage := .text, defaultValue := some (.text "it's (a, b)") },
      { name := "rule", storage := .text, defaultValue := some (.text "is not null") }]

/-- Each of its clauses is read, but not all of them as they were written.  One default
    says that something is not null, and the reader takes this for a flag. -/
theorem CreateTable.remarked_readColumns :
    ∃ q : Query, remarked.build .sqlite = .ok q
      ∧ (readColumns q.sql).map ColumnInfo.name = ["id", "body", "rule"]
      ∧ ¬ List.Forall₂ ColumnClause.ReadsBack remarked.columns (readColumns q.sql) := by
  have hdepth : ∀ c ∈ remarked.columns, c.KeepsDepth := by
    intro c hc v hv
    simp only [remarked, List.mem_cons, List.not_mem_nil, or_false] at hc
    rcases hc with rfl | rfl | rfl <;> cases hv <;> rfl
  obtain ⟨q, hbuild, hread, hiff⟩ := readColumns_build
    (show remarked.table = some "remarked" from rfl) (by decide) (by decide) (by decide) hdepth
  refine ⟨q, hbuild, hread, fun hall => ?_⟩
  exact hiff.mp hall _ (List.mem_cons_of_mem _ (List.mem_cons_of_mem _ (List.mem_cons_self ..)))
    (.notNull (by decide +kernel) ⟨rfl, rfl⟩)

/-- A comma that is in no parentheses gives another column. -/
example : (readColumns "CREATE TABLE notes (id INTEGER, body TEXT DEFAULT 'a, b');").map
    ColumnInfo.name = ["id", "body", "b'"] := by decide +kernel

end Gridbase
