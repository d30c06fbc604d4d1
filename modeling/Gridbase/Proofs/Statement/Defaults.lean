import Gridbase.Proofs.Statement.Completion
import Gridbase.Proofs.Text.Lexeme
import Gridbase.Proofs.Value
import Mathlib.Data.List.Forall2

/-! # Defaults stay literals

    The defaults of columns are the only values that are written into a statement.
    Whatever they hold, the statement is cut into one clause for each column, and a
    text is read back as the literal at the end of its clause.

    * `Value.inClause_literal`: no value cuts its clause or ends the statement.
    * `ColumnClause.inClause_text`: a column is one clause.
    * `CreateTable.clauses_of_columns`: the statement has one clause for each column. -/

namespace Gridbase

open Gridbase.Text

/-! ## Inert texts -/

theorem Identifier.inert {cs : List Char} (h : ∀ c ∈ cs, isBody c = true) : Inert cs := by
  intro c hc hm
  have hbody := h c hc
  -- each of the five marks, none of which is a body character
  simp only [List.mem_cons, List.not_mem_nil, or_false] at hm
  rcases hm with rfl | rfl | rfl | rfl | rfl <;> exact nomatch hbody

theorem inert_numerals : Inert numerals := by decide

theorem inert_clockMarks : Inert clockMarks := by decide

theorem inert_hexDigits : Inert hexDigits := by decide

/-! ## Literals of values -/

/-- The lexemes of a value's literal.  Texts, moments and bytes are written in quotes;
    all others are written as plain characters. -/
def Value.lexemes (d : Dialect) : Value → List Lexeme
  | .text s => [.literal s.toList]
  | .moment m => [.literal m.text.toList]
  | .blob bytes => [.char 'X', .literal (hexText bytes).toList]
  | v => (d.literal v).toList.map .char

/-- **A VALUE STANDS IN A CLAUSE** as the lexemes of its literal.  Quotes inside are
    doubled, so nothing in the text of a value is a character of the clause. -/
theorem Value.inClause_literal (d : Dialect) (v : Value) :
    InClause (d.literal v).toList (v.lexemes d) := by
  -- digits and words are inert; quoted texts are one lexeme, whatever they hold
  cases v with
  | null => cases d <;> exact Whole.inClause (by decide)
  | bool b => cases d <;> cases b <;> exact Whole.inClause (by decide)
  | int n =>
      have hinert := inert_numerals.of_subset (ofInt_subset n.toInt)
      cases d <;> exact hinert.whole.inClause
  | float x =>
      have hinert := inert_numerals.of_subset x.plainText_numeral.2
      cases d <;> exact hinert.whole.inClause
  | decimal x =>
      have hinert := inert_numerals.of_subset x.text_numeral.2
      cases d <;> exact hinert.whole.inClause
  | text s =>
      have htext : (d.literal (.text s)).toList = enclosed '\'' '\'' s.toList := by
        cases d <;> exact String.toList_ofList
      rw [htext]
      exact inClause_enclosed s.toList
  | moment m =>
      have htext : (d.literal (.moment m)).toList = enclosed '\'' '\'' m.text.toList := by
        rw [enclosed, doubleMark_of_not_mem (inert_clockMarks.of_subset m.text_subset).whole.quote]
        cases d <;> simp [Dialect.literal, literal]
      rw [htext]
      exact inClause_enclosed m.text.toList
  | blob bytes =>
      have htext : (d.literal (.blob bytes)).toList
          = ['X'] ++ enclosed '\'' '\'' (hexText bytes).toList := by
        rw [enclosed,
          doubleMark_of_not_mem (inert_hexDigits.of_subset (hexText_subset bytes)).whole.quote]
        cases d <;> simp [Dialect.literal, literal]
      rw [htext]
      exact (inClause_enclosed _).append_chars (a := ['X']) (by decide)

/-! ## Clauses of columns -/

namespace ColumnClause

/-- The clause without its default: its name, its type, and the words for key and NULL.
    -/
def front (d : Dialect) (c : ColumnClause) : String :=
  joinWith " " (c.name :: d.storageType c.storage ::
    (c.keyWords d ++ if c.nullable then [] else ["NOT NULL"]))

/-- The default as it stands after the clause. -/
def tail (d : Dialect) (c : ColumnClause) : String :=
  match c.defaultValue with
  | none => ""
  | some v => " DEFAULT " ++ d.literal v

theorem text_eq (d : Dialect) (c : ColumnClause) : c.text d = c.front d ++ c.tail d := by
  rw [text, defaultWords, front, tail]
  cases c.defaultValue with
  | none => simp
  | some v =>
      have hdefault : " " ++ ("DEFAULT " ++ d.literal v) = " DEFAULT " ++ d.literal v := by
        rw [← String.append_assoc]
        rfl
      rw [← List.cons_append, ← List.cons_append, joinWith_concat " " (by simp),
        String.append_assoc, hdefault]

/-- The lexemes of the clause.  All but the literal of its default are plain characters.
    -/
def lexemes (d : Dialect) (c : ColumnClause) : List Lexeme :=
  (c.front d).toList.map .char ++
    match c.defaultValue with
    | none => []
    | some v => " DEFAULT ".toList.map .char ++ v.lexemes d

/-- Types and words may stand in a clause, and so may a valid name.  None of them has a
    quote, a comma or a semicolon in it, and parentheses are closed where they are
    opened. -/
theorem whole_front {d : Dialect} {c : ColumnClause} (h : d.isValidName c.name = true) :
    Whole (c.front d).toList := by
  have hname : Whole c.name.toList :=
    (Identifier.inert fun _ hc => Identifier.isBody_of_mem h hc).whole
  have hstorage : Whole (d.storageType c.storage).toList := by
    cases d <;> cases c.storage <;> decide
  have hkey : ∀ w ∈ c.keyWords d, Whole w.toList := by
    rw [keyWords]
    cases d <;> cases c.primaryKey <;> cases c.autoIncrement <;> decide
  have hnull : ∀ w ∈ (if c.nullable then [] else ["NOT NULL"]), Whole w.toList := by
    cases c.nullable <;> decide
  have hwords : ∀ w ∈ d.storageType c.storage ::
      (c.keyWords d ++ if c.nullable then [] else ["NOT NULL"]), Whole w.toList := by
    intro w hw
    rcases List.mem_cons.mp hw with rfl | hw
    · exact hstorage
    · exact (List.mem_append.mp hw).elim (hkey w) (hnull w)
  rw [front, toList_joinWith_cons]
  generalize d.storageType c.storage ::
    (c.keyWords d ++ if c.nullable then [] else ["NOT NULL"]) = words at hwords
  refine hname.append ?_
  -- induction on the words, each behind its blank
  induction words with
  | nil => decide
  | cons w words ih =>
      rw [List.flatMap_cons]
      exact (Whole.append (by decide) (hwords w (List.mem_cons_self ..))).append
        (ih fun x hx => hwords x (List.mem_cons_of_mem _ hx))

/-- **A COLUMN IS ONE CLAUSE**, whatever its default holds.  A literal is closed before
    the clause ends, and the next clause begins with a comma. -/
theorem inClause_text {d : Dialect} {c : ColumnClause} (h : d.isValidName c.name = true) :
    InClause (c.text d).toList (c.lexemes d) := by
  have hfront := whole_front h
  rw [text_eq, String.toList_append, lexemes, tail]
  cases c.defaultValue with
  | none =>
      rw [List.append_nil]
      exact (List.append_nil _).symm ▸ hfront.inClause
  | some v =>
      rw [String.toList_append]
      exact ((v.inClause_literal d).append_chars (by decide)).append_chars hfront

end ColumnClause

/-! ## Statements -/

/-- What a clause says of its column: the name comes first, and a text default is the literal
    at the end, the only one in the clause. -/
structure ColumnClause.StandsAs (c : ColumnClause) (clause : List Lexeme) : Prop where
  name : ∃ rest, clause.dropWhile (fun l => l == .char ' ')
    = c.name.toList.map .char ++ .char ' ' :: rest
  text : ∀ s, c.defaultValue = some (.text s) → ∃ before,
    clause = before ++ [.literal s.toList] ∧ ∀ t, .literal t ∉ before

namespace ColumnClause

variable {d : Dialect} {c : ColumnClause}

/-- The lexemes of a clause begin with the name of its column. -/
theorem exists_lexemes_eq (d : Dialect) (c : ColumnClause) :
    ∃ rest, c.lexemes d = c.name.toList.map .char ++ .char ' ' :: rest := by
  have hfront : (c.front d).toList = c.name.toList ++ ' ' :: (joinWith " "
      (d.storageType c.storage
        :: (c.keyWords d ++ if c.nullable then [] else ["NOT NULL"]))).toList := by
    rw [front, joinWith_cons " " c.name (by simp)]
    simp
  rw [lexemes, hfront, List.map_append, List.map_cons, List.append_assoc, List.cons_append]
  exact ⟨_, rfl⟩

/-- No blank comes before the name. -/
theorem dropWhile_lexemes (h : d.isValidName c.name = true) :
    (c.lexemes d).dropWhile (fun l => l == .char ' ') = c.lexemes d := by
  obtain ⟨rest, hrest⟩ := exists_lexemes_eq d c
  cases hname : c.name.toList with
  | nil => exact absurd hname (Identifier.toList_ne_nil h)
  | cons x xs =>
      have hx : ¬ (Lexeme.char x == .char ' ') = true := by
        intro hblank
        obtain rfl : x = ' ' := Lexeme.char.inj (beq_iff_eq.mp hblank)
        exact Identifier.not_mem_of_isValid h (c := ' ') (by decide)
          (by rw [hname]; exact List.mem_cons_self ..)
      rw [hrest, hname, List.map_cons, List.cons_append]
      exact List.dropWhile_cons_of_neg hx

/-- The lexemes of a clause say what its column is. -/
theorem standsAs_lexemes (h : d.isValidName c.name = true) : c.StandsAs (c.lexemes d) where
  name := by
    rw [dropWhile_lexemes h]
    exact exists_lexemes_eq d c
  text s hs := by
    refine ⟨(c.front d).toList.map .char ++ " DEFAULT ".toList.map .char, ?_, ?_⟩
    · rw [lexemes, hs, List.append_assoc]
      rfl
    · intro t ht
      rw [← List.map_append] at ht
      obtain ⟨_, -, hchar⟩ := List.mem_map.mp ht
      exact nomatch hchar

/-- The blank after a comma says nothing. -/
theorem StandsAs.afterBlank {clause : List Lexeme} (h : c.StandsAs clause) :
    c.StandsAs (.char ' ' :: clause) where
  name := h.name
  text s hs := by
    obtain ⟨before, rfl, hnone⟩ := h.text s hs
    refine ⟨.char ' ' :: before, rfl, ?_⟩
    intro t ht
    rcases List.mem_cons.mp ht with hblank | ht
    · exact nomatch hblank
    · exact hnone t ht

end ColumnClause

namespace CreateTable

/-- The words before the columns. -/
def head (s : CreateTable) (table : String) : String :=
  "CREATE TABLE " ++ ((if s.ifNotExists then "IF NOT EXISTS " else "") ++ (table ++ " "))

/-- The lexemes of the columns after the first, each after a comma. -/
def otherLexemes (d : Dialect) (columns : List ColumnClause) : List Lexeme :=
  columns.flatMap fun c => .char ',' :: .char ' ' :: c.lexemes d

theorem toList_text (d : Dialect) {s : CreateTable} {first : ColumnClause}
    {others : List ColumnClause} (hs : s.columns = first :: others) (table : String) :
    (s.text d table).toList
      = (s.head table).toList ++ '(' :: ((first.text d).toList
        ++ ((others.flatMap fun c => ", ".toList ++ (c.text d).toList) ++ [')', ';'])) := by
  -- unfolded by hand: the equation of `text` takes long to make
  show ("CREATE TABLE " ++ (if s.ifNotExists then "IF NOT EXISTS " else "") ++ table
    ++ (" (" ++ joinWith ", " (s.columns.map fun c => c.text d) ++ ")") ++ ";").toList = _
  simp only [head, hs, List.map_cons, String.toList_append, toList_joinWith_cons,
    List.flatMap_map, List.append_assoc]
  rfl

/-- The words before the columns are inert. -/
theorem inert_head {d : Dialect} (s : CreateTable) {table : String}
    (h : d.isValidName table = true) : Inert (s.head table).toList := by
  have hexists : Inert (if s.ifNotExists then "IF NOT EXISTS " else "").toList := by
    cases s.ifNotExists <;> decide
  rw [head, String.toList_append, String.toList_append, String.toList_append]
  refine Inert.append (by decide) (hexists.append (Inert.append ?_ (by decide)))
  exact Identifier.inert fun _ hc => Identifier.isBody_of_mem h hc

/-- The columns after the first are scanned one after the other. -/
theorem scansTo_others {d : Dialect} {others : List ColumnClause}
    (h : ∀ c ∈ others, d.isValidName c.name = true) {rest : List Char} {ls : List Lexeme}
    (hrest : ScansTo rest ls) (hquote : rest.head? ≠ some '\'') :
    ScansTo ((others.flatMap fun c => ", ".toList ++ (c.text d).toList) ++ rest)
        (otherLexemes d others ++ ls)
      ∧ ((others.flatMap fun c => ", ".toList ++ (c.text d).toList) ++ rest).head?
        ≠ some '\'' := by
  induction others with
  | nil => exact ⟨hrest, hquote⟩
  | cons c others ih =>
      obtain ⟨hscan, hhead⟩ := ih fun x hx => h x (List.mem_cons_of_mem _ hx)
      have htext := (ColumnClause.inClause_text (h c (List.mem_cons_self ..))).scans
      rw [otherLexemes, List.flatMap_cons, List.flatMap_cons, List.append_assoc,
        List.append_assoc, List.append_assoc]
      exact ⟨(htext.append hscan hhead).append_chars (a := [',', ' ']) (by decide), by simp⟩

/-- No column ends the statement. -/
theorem semicolon_notMem_otherLexemes {d : Dialect} {others : List ColumnClause}
    (h : ∀ c ∈ others, d.isValidName c.name = true) : .char ';' ∉ otherLexemes d others := by
  intro hm
  obtain ⟨c, hc, hcm⟩ := List.mem_flatMap.mp hm
  rcases List.mem_cons.mp hcm with hcomma | hcm
  · exact absurd hcomma (by decide)
  · rcases List.mem_cons.mp hcm with hblank | hcm
    · exact absurd hblank (by decide)
    · exact (ColumnClause.inClause_text (h c hc)).semicolon hcm

/-- The lexemes of the statement before its end. -/
def lexemes (d : Dialect) (s : CreateTable) (table : String) (first : ColumnClause)
    (others : List ColumnClause) : List Lexeme :=
  (s.head table).toList.map .char ++ .char '('
    :: (first.lexemes d ++ (otherLexemes d others ++ [.char ')']))

section

variable {d : Dialect} {s : CreateTable} {table : String} {first : ColumnClause}
  {others : List ColumnClause}

/-- The statement is scanned to its lexemes, part by part. -/
theorem scan_text (hs : s.columns = first :: others) (hname : d.isValidName table = true)
    (hfirst : d.isValidName first.name = true)
    (hothers : ∀ c ∈ others, d.isValidName c.name = true) :
    scan (s.text d table).toList = some (s.lexemes d table first others ++ [.char ';']) := by
  have hend : ScansTo [')', ';'] [.char ')', .char ';'] := scansTo_chars (by decide)
  obtain ⟨hscanOthers, hquote⟩ := scansTo_others hothers hend (by decide)
  have hcolumns := (ColumnClause.inClause_text hfirst).scans.append hscanOthers hquote
  have hbody := hcolumns.append_chars (a := ['(']) (by decide)
  have htext := hbody.append_chars (inert_head s hname).whole.quote
  have hlexemes : s.lexemes d table first others ++ [.char ';']
      = (s.head table).toList.map .char ++ .char '('
        :: (first.lexemes d ++ (otherLexemes d others ++ [.char ')', .char ';'])) := by
    simp only [lexemes, List.append_assoc, List.cons_append, List.nil_append]
  rw [toList_text d hs, hlexemes]
  exact htext.scan_eq

/-- The first parenthesis opens the body, and each clause is found in it. -/
theorem body?_lexemes (hname : d.isValidName table = true)
    (hfirst : d.isValidName first.name = true)
    (hothers : ∀ c ∈ others, d.isValidName c.name = true) :
    body? (s.lexemes d table first others ++ [.char ';'])
      = some ⟨first.lexemes d, others.map fun c => .char ' ' :: c.lexemes d, [.char ';']⟩ := by
  -- nothing before the body opens a parenthesis
  have hopen : ∀ l ∈ (s.head table).toList.map Lexeme.char, (l != .char '(') = true := by
    rw [List.forall_mem_map]
    intro c hc
    rw [bne_iff_ne]
    rintro ⟨⟩
    exact inert_head s hname _ hc (by decide)
  have hclauses : ∀ c ∈ others.map (ColumnClause.lexemes d), IsClause c :=
    List.forall_mem_map.mpr fun c hc => (ColumnClause.inClause_text (hothers c hc)).clause
  have hbody := bodyFrom_clauses (ColumnClause.inClause_text hfirst).clause hclauses [.char ';']
  rw [List.flatMap_map, List.map_map] at hbody
  rw [lexemes, List.append_assoc, body?, List.dropWhile_append_of_pos hopen, List.cons_append,
    List.dropWhile_cons_of_neg (by decide), List.tail_cons, List.append_assoc, List.append_assoc]
  exact hbody

/-- Nothing before the end of the statement ends it. -/
theorem semicolon_notMem_lexemes (hname : d.isValidName table = true)
    (hfirst : d.isValidName first.name = true)
    (hothers : ∀ c ∈ others, d.isValidName c.name = true) :
    .char ';' ∉ s.lexemes d table first others := by
  rw [lexemes, List.mem_append, List.mem_cons, List.mem_append, List.mem_append]
  rintro (hhead | hopen | hcolumn | hcolumns | hclose)
  · exact (inert_head s hname).whole.semicolon_notMem hhead
  · exact absurd hopen (by decide)
  · exact (ColumnClause.inClause_text hfirst).semicolon hcolumn
  · exact semicolon_notMem_otherLexemes hothers hcolumns
  · exact absurd hclose (by decide)

end

/-- **ONE CLAUSE FOR EACH COLUMN.**  The statement of a valid table with valid columns has as
    many clauses as columns, whatever the defaults hold, and ends at its only semicolon. -/
theorem clauses_of_columns {d : Dialect} {s : CreateTable} {table : String}
    (htable : s.table = some table) (hname : d.isValidName table = true) (hne : s.columns ≠ [])
    (hcolumns : ∀ c ∈ s.columns, d.isValidName c.name = true) :
    ∃ (q : Query) (lexemes : List Lexeme) (body : Body), s.build d = .ok q
      ∧ scan q.sql.toList = some lexemes ∧ body? lexemes = some body
      ∧ List.Forall₂ ColumnClause.StandsAs s.columns body.clauses ∧ body.rest = [.char ';']
      ∧ ∃ before : List Lexeme, lexemes = before ++ [.char ';'] ∧ .char ';' ∉ before := by
  obtain ⟨first, others, hs⟩ := List.exists_cons_of_ne_nil hne
  have hbuild := build_eq_ok htable hname hne hcolumns
  rw [hs, List.forall_mem_cons] at hcolumns
  obtain ⟨hfirst, hothers⟩ := hcolumns
  refine ⟨_, _, _, hbuild, scan_text hs hname hfirst hothers, body?_lexemes hname hfirst hothers,
    ?_, rfl, _, rfl, semicolon_notMem_lexemes hname hfirst hothers⟩
  rw [hs, Body.clauses, List.forall₂_cons, List.forall₂_map_right_iff, List.forall₂_same]
  exact ⟨ColumnClause.standsAs_lexemes hfirst,
    fun c hc => (ColumnClause.standsAs_lexemes (hothers c hc)).afterBlank⟩

/-- A table with a default that would end its clause, the columns and the statement.
    Read without its quotes, it opens another clause and drops a table. -/
def hostile : CreateTable where
  table := some "notes"
  ifNotExists := true
  columns :=
    [{ name := "id", storage := .integer, primaryKey := true, autoIncrement := true },
      { name := "body", storage := .text, defaultValue := some (.text "a'), (b'; DROP TABLE x;") },
      { name := "price", storage := .numeric, nullable := false,
        defaultValue := some (.int (-7)) }]

/-- Its statement has three clauses all the same, and one end.  The default is one
    literal in the second of them. -/
theorem hostile_clauses :
    ∃ (q : Query) (lexemes : List Lexeme) (body : Body), hostile.build .sqlServer = .ok q
      ∧ scan q.sql.toList = some lexemes ∧ body? lexemes = some body
      ∧ List.Forall₂ ColumnClause.StandsAs hostile.columns body.clauses ∧ body.rest = [.char ';']
      ∧ ∃ before : List Lexeme, lexemes = before ++ [.char ';'] ∧ .char ';' ∉ before :=
  clauses_of_columns (show hostile.table = some "notes" from rfl) (by decide) (by decide)
    (by decide)

end CreateTable

end Gridbase
