import Gridbase.Proofs.Statement.Calls
import Gridbase.Proofs.Text.Token
import Gridbase.Proofs.Value

/-! # Tokens of statements

    What a backend reads in the text of a statement.  A statement has words, numbers and marks
    of its own (`isGrammar`); all else in it is a name as a whole, bare or in quotes, or the
    literal of a default (`Allowed`).

    The parts of a statement are read one after the other, from the lists inside to the text
    as a whole, and the text ends with its only semicolon (`Request.oneStatement`). -/

namespace Gridbase

open Gridbase.Text

/-! ## Tokens that may stand in a statement -/

/-- The words that statements are written with, those for types and storage classes
    among them. -/
def grammarWords : List String :=
  ["SELECT", "FROM", "WHERE", "AND", "OR", "LIKE", "ORDER", "BY", "ASC", "DESC", "INSERT", "INTO",
    "VALUES", "UPDATE", "SET", "DELETE", "CREATE", "TABLE", "IF", "NOT", "EXISTS", "NULL",
    "PRIMARY", "KEY", "AUTOINCREMENT", "DEFAULT", "ALTER", "RENAME", "TO", "DROP", "INTEGER",
    "REAL", "TEXT", "BLOB", "NUMERIC", "BOOLEAN", "VARCHAR", "DECIMAL", "DATETIME"]

/-- The marks that statements are written with, besides the semicolon. -/
def grammarMarks : List Char := [' ', '\n', ',', '(', ')', '*', '=', '<', '>', '?']

/-- A token that a statement has of itself: a word, a number or a mark.  Nothing in
    quotes is. -/
def isGrammar : Token → Bool
  | .word s => grammarWords.any (fun w => w.toList == s) || s.all Char.isDigit
  | .quoted .. => false
  | .mark c => grammarMarks.contains c

/-- The tokens of the literal of a value. -/
def Value.tokens (v : Value) : List Token := (tokens? (Dialect.sqlite.literal v)).getD []

/-- A token that may stand in a statement over some names and with some literals: one of
    the grammar, a valid name, bare or in quotes, or one of a literal. -/
inductive Allowed (names : List String) (literals : List Value) : Token → Prop
  | grammar {t : Token} (h : isGrammar t = true) : Allowed names literals t
  | bare {name : String} (h : name ∈ names) (valid : Dialect.sqlite.isValidName name = true) :
      Allowed names literals (.word name.toList)
  | inQuotes {name : String} (h : name ∈ names) (valid : Dialect.sqlite.isValidName name = true) :
      Allowed names literals (.quoted .double name.toList)
  | literal {v : Value} {t : Token} (h : v ∈ literals) (ht : t ∈ v.tokens) :
      Allowed names literals t

/-- The text is one statement: it ends with a semicolon, no other token is one, and all other
    tokens may stand in it. -/
structure OneStatement (names : List String) (literals : List Value) (sql : String) : Prop where
  ends : ∃ body, sql = body ++ ";"
  tokens : ∃ ts, tokens? sql = some (ts ++ [.mark ';']) ∧ .mark ';' ∉ ts
    ∧ ∀ t ∈ ts, Allowed names literals t

/-! ## Literals -/

theorem quoted_of_not_mem {s : String} (h : '\'' ∉ s.toList) :
    quoted '\'' '\'' s = "'" ++ s ++ "'" := by
  rw [← String.toList_inj, quoted, enclosed, doubleMark_of_not_mem h]
  simp

/-- **A LITERAL HAS TOKENS**, and none of them ends a statement.  Only a text could have
    a semicolon, and it stands in quotes. -/
theorem Value.tokens?_literal (v : Value) :
    ∃ ts, tokens? (Dialect.sqlite.literal v) = some ts ∧ .mark ';' ∉ ts := by
  have hnumber {s : String} (h : s.toList ⊆ numerals) :
      ∃ ts, tokens? s = some ts ∧ .mark ';' ∉ ts := by
    have hquotes : numerals.all (fun c => (quote? c).isNone) = true := by decide
    obtain ⟨ts, hts, hmarks⟩ := exists_tokens fun c hc =>
      Option.isNone_iff_eq_none.mp (List.all_eq_true.mp hquotes c (h hc))
    exact ⟨ts, hts, fun hm => absurd (h (hmarks _ hm)) (by decide)⟩
  cases v with
  | null => exact ⟨_, rfl, by decide⟩
  | bool b => cases b <;> exact ⟨_, rfl, by decide⟩
  | int n => exact hnumber (ofInt_subset n.toInt)
  | float x => exact hnumber x.plainText_numeral.2
  | decimal x => exact hnumber x.text_numeral.2
  | text s => exact ⟨_, tokens?_quoted .single s, by simp⟩
  | moment m =>
      have hquote : '\'' ∉ m.text.toList := fun hm => absurd (m.text_subset hm) (by decide)
      have htokens := tokens?_quoted .single m.text
      rw [Quote.char, quoted_of_not_mem hquote] at htokens
      exact ⟨_, htokens, by simp⟩
  | blob bytes =>
      have hquote : '\'' ∉ (hexText bytes).toList :=
        fun hm => absurd (hexText_subset bytes hm) (by decide)
      have hword : "X".toList.all isWordChar = true := by decide
      have htokens := tokens?_word_quoted (by decide) (List.all_eq_true.mp hword) .single
        (hexText bytes)
      rw [Quote.char, quoted_of_not_mem hquote, ← String.append_assoc, ← String.append_assoc]
        at htokens
      exact ⟨_, htokens, by simp⟩

theorem Value.tokens?_eq (v : Value) : tokens? (Dialect.sqlite.literal v) = some v.tokens := by
  obtain ⟨ts, hts, -⟩ := v.tokens?_literal
  rw [Value.tokens, hts]
  rfl

/-- No token that may stand in a statement ends it. -/
theorem Allowed.ne_semicolon {names : List String} {literals : List Value} {t : Token}
    (h : Allowed names literals t) : t ≠ .mark ';' := by
  rintro rfl
  cases h with
  | grammar h => exact absurd h (by decide)
  | literal hv ht =>
      rename_i v
      obtain ⟨ts, hts, hnone⟩ := v.tokens?_literal
      rw [Value.tokens, hts] at ht
      exact hnone ht

/-! ## Texts without names -/

/-- A text of the grammar that leaves no token pending, so anything may follow it. -/
def Fixed (s : String) : Prop :=
  (feed .free s.toList).2 = .free ∧ ∀ t ∈ (feed .free s.toList).1, isGrammar t = true

instance (s : String) : Decidable (Fixed s) := inferInstanceAs (Decidable (_ ∧ _))

/-- A text of the grammar that begins with a mark, and may follow anything: the mark
    ends the token before. -/
def Joint (s : String) : Prop := Fixed s ∧ Breaks s

instance (s : String) : Decidable (Joint s) := inferInstanceAs (Decidable (_ ∧ _))

/-- A text of the grammar. -/
def Spelled (s : String) : Prop := ∃ ts ∈ tokens? s, ∀ t ∈ ts, isGrammar t = true

instance (s : String) : Decidable (Spelled s) := inferInstanceAs (Decidable (∃ ts ∈ tokens? s, _))

section

variable {ok : Token → Prop} (hok : ∀ t, isGrammar t = true → ok t)
include hok

theorem Fixed.reads {s : String} (h : Fixed s) : Reads ok Free s Free := by
  rintro p rfl
  exact ⟨fun t ht => hok t (h.2 t ht), h.1⟩

theorem Joint.reads {s : String} (h : Joint s) : Reads ok (Ready ok) s Free :=
  (h.1.reads hok).afterPending h.2

theorem Spelled.reads {s : String} (h : Spelled s) : Reads ok Free s (Ready ok) := by
  obtain ⟨ts, hts, hall⟩ := h
  exact reads_iff.mpr ⟨ts, hts, fun t ht => hok t (hall t ht)⟩

theorem reads_ofNat (n : Nat) : Reads ok Free (ofNat n) (Ready ok) := by
  have htext : (ofNat n).toList = digits n := String.toList_ofList
  have hword : ∀ c ∈ digits n, isWordChar c = true := by
    intro c hc
    rw [isWordChar, Identifier.isBody, Char.isAlphanum, isDigit_of_mem_digits hc]
    simp
  refine reads_iff.mpr ⟨_, tokens?_word ?_ ?_, List.forall_mem_singleton.mpr (hok _ ?_)⟩
  · rw [htext]
    exact Nat.toDigits_ne_nil
  · rw [htext]
    exact hword
  · rw [isGrammar, htext, List.all_eq_true.mpr fun c hc => isDigit_of_mem_digits hc,
      Bool.or_true]

theorem reads_placeholder (i : Nat) :
    Reads ok (Ready ok) (Dialect.sqlite.placeholder i) (Ready ok) :=
  (Joint.reads hok (s := "?") (by decide)).append (reads_ofNat hok (i + 1))

theorem reads_blank : Reads ok (Ready ok) " " Free := Joint.reads hok (by decide)

theorem reads_comma : Reads ok (Ready ok) ", " Free := Joint.reads hok (by decide)

end

/-! ## Fragments -/

/-- Fragments make a text that is read, wherever the count of their values begins. -/
def ReadsFragments (ok : Token → Prop) (A : Pending → Prop) (fragments : List Fragment)
    (B : Pending → Prop) : Prop :=
  ∀ i, Reads ok A (Query.write .sqlite i fragments) B

/-- The text is read as a whole but for a semicolon at its end.  There is no other one
    outside of quotes. -/
def EndsOnce (ok : Token → Prop) (sql : String) : Prop :=
  ∃ body, sql = body ++ ";" ∧ Reads ok Free body (Ready ok)

theorem EndsOnce.oneStatement {names : List String} {literals : List Value} {sql : String}
    (h : EndsOnce (Allowed names literals) sql) : OneStatement names literals sql := by
  obtain ⟨body, rfl, hreads⟩ := h
  obtain ⟨ts, hts, hallowed⟩ := reads_iff.mp hreads
  refine ⟨⟨body, rfl⟩, ts, tokens?_append_mark rfl rfl rfl hts, fun hm => ?_, hallowed⟩
  exact (hallowed _ hm).ne_semicolon rfl

theorem Query.write_concat (d : Dialect) (x y : String) (front : List Fragment) :
    ∀ i, write d i (front ++ [.text (x ++ y)]) = write d i (front ++ [.text x]) ++ y := by
  induction front with
  | nil =>
      intro i
      show x ++ y ++ "" = x ++ "" ++ y
      rw [String.append_empty, String.append_empty]
  | cons f front ih =>
      intro i
      cases f with
      | text s =>
          show s ++ write d i (front ++ _) = s ++ write d i (front ++ _) ++ y
          rw [ih, String.append_assoc]
      | parameter v =>
          show d.placeholder i ++ write d (i + 1) (front ++ _)
            = d.placeholder i ++ write d (i + 1) (front ++ _) ++ y
          rw [ih, String.append_assoc]

section

variable {ok : Token → Prop} {A B C : Pending → Prop} {fragments rest : List Fragment} {s : String}

theorem ReadsFragments.nil : ReadsFragments ok A [] A := fun _ => reads_empty

theorem ReadsFragments.text (hs : Reads ok A s B) (h : ReadsFragments ok B fragments C) :
    ReadsFragments ok A (.text s :: fragments) C :=
  fun i => hs.append (h i)

/-- The last fragment before the end. -/
theorem ReadsFragments.last (hs : Reads ok A s B) : ReadsFragments ok A [.text s] B := .text hs .nil

theorem ReadsFragments.ofReady (h : ReadsFragments ok (Ready ok) fragments B) :
    ReadsFragments ok Free fragments B :=
  fun i => (h i).ofReady

/-- Fragments whose last one ends with the semicolon. -/
theorem EndsOnce.ofFragments {last : String} (hlast : s ++ ";" = last)
    (h : ReadsFragments ok Free (fragments ++ [.text s]) (Ready ok)) :
    EndsOnce ok (Query.ofFragments .sqlite (fragments ++ [.text last])).sql :=
  ⟨_, hlast ▸ Query.write_concat .sqlite s ";" fragments 0, h 0⟩

variable (hok : ∀ t, isGrammar t = true → ok t)
include hok

theorem ReadsFragments.parameter {v : Value} (h : ReadsFragments ok (Ready ok) fragments B) :
    ReadsFragments ok (Ready ok) (.parameter v :: fragments) B :=
  fun i => (reads_placeholder hok i).append (h (i + 1))

/-! ## Clauses -/

theorem Condition.reads_fragments {lead : String} (hlead : Joint lead)
    {c : Condition} (hc : Reads ok Free c.column (Ready ok))
    (tail : ReadsFragments ok (Ready ok) rest B) :
    ReadsFragments ok (Ready ok) (c.fragments lead ++ rest) B := by
  have hsymbol : Spelled c.operator.symbol := by cases c.operator <;> decide
  have hcolumn := ((hlead.reads hok).append hc).append (reads_blank hok)
  exact .text ((hcolumn.append (hsymbol.reads hok)).append (reads_blank hok))
    (ReadsFragments.parameter hok tail).ofReady

theorem Condition.reads_rest {cs : List Condition}
    (h : ∀ c ∈ cs, Reads ok Free c.column (Ready ok))
    (tail : ReadsFragments ok (Ready ok) rest B) :
    ReadsFragments ok (Ready ok) (restFragments cs ++ rest) B := by
  induction cs with
  | nil => exact tail
  | cons c cs ih =>
      obtain ⟨hc, hcs⟩ := List.forall_mem_cons.mp h
      have hconnector : Joint c.connector.word := by cases c.connector <;> decide
      rw [restFragments, List.append_assoc]
      exact reads_fragments hok hconnector hc (ih hcs)

/-- **CONDITIONS ARE READ** as their columns between words and marks. -/
theorem Condition.reads_clause {cs : List Condition}
    (h : ∀ c ∈ cs, Reads ok Free c.column (Ready ok))
    (tail : ReadsFragments ok (Ready ok) rest B) :
    ReadsFragments ok (Ready ok) (clause cs ++ rest) B := by
  cases cs with
  | nil => exact tail
  | cons c cs =>
      obtain ⟨hc, hcs⟩ := List.forall_mem_cons.mp h
      rw [clause, List.append_assoc]
      exact reads_fragments hok (by decide) hc (reads_rest hok hcs tail)

theorem Update.reads_assignment {lead : String} (hlead : Joint lead)
    {e : Entry} (he : Reads ok Free e.name (Ready ok))
    (tail : ReadsFragments ok (Ready ok) rest B) :
    ReadsFragments ok (Ready ok) (assignment lead e ++ rest) B := by
  have hequals : Reads ok (Ready ok) " = " Free := Joint.reads hok (by decide)
  exact .text (((hlead.reads hok).append he).append hequals)
    (ReadsFragments.parameter hok tail).ofReady

/-- **ASSIGNMENTS ARE READ** as their columns between words and marks. -/
theorem Update.reads_setClause {entries : List Entry}
    (h : ∀ e ∈ entries, Reads ok Free e.name (Ready ok))
    (tail : ReadsFragments ok (Ready ok) rest B) :
    ReadsFragments ok (Ready ok) (setClause entries ++ rest) B := by
  have hrest : ∀ es : List Entry, (∀ e ∈ es, Reads ok Free e.name (Ready ok)) →
      ReadsFragments ok (Ready ok) (es.flatMap (assignment ", ") ++ rest) B := by
    intro es hes
    induction es with
    | nil => exact tail
    | cons e es ih =>
        obtain ⟨he, hes⟩ := List.forall_mem_cons.mp hes
        rw [List.flatMap_cons, List.append_assoc]
        exact reads_assignment hok (by decide) he (ih hes)
  cases entries with
  | nil => exact tail
  | cons e es =>
      obtain ⟨he, hes⟩ := List.forall_mem_cons.mp h
      rw [setClause, List.append_assoc]
      exact reads_assignment hok (by decide) he (hrest es hes)

theorem Insert.reads_values (values : List Value) (tail : ReadsFragments ok (Ready ok) rest B) :
    ReadsFragments ok (Ready ok) (valueFragments values ++ rest) B := by
  induction values with
  | nil => exact tail
  | cons v values ih =>
      cases values with
      | nil => exact .parameter hok tail
      | cons w values => exact .parameter hok (.text (reads_comma hok).toReady ih)

/-- A list in parentheses. -/
theorem reads_parentheses {items : List String} (h : ∀ x ∈ items, Reads ok Free x (Ready ok)) :
    Reads ok (Ready ok) (" (" ++ joinWith ", " items ++ ")") (Ready ok) := by
  have hopen : Reads ok (Ready ok) " (" Free := Joint.reads hok (by decide)
  have hclose : Reads ok (Ready ok) ")" Free := Joint.reads hok (by decide)
  exact ((hopen.append (reads_joinWith (reads_comma hok) h)).append hclose).toReady

/-! ## Statements that bind values -/

variable {table : String} (htable : Reads ok Free table (Ready ok))
include htable

/-- A selection is read as one statement, if its names are. -/
theorem Select.endsOnce {s : Select} (hcolumns : ∀ c ∈ s.columns, Reads ok Free c (Ready ok))
    (hconditions : ∀ c ∈ s.conditions, Reads ok Free c.column (Ready ok))
    (horder : ∀ t ∈ s.order, Reads ok Free t.column (Ready ok)) :
    EndsOnce ok (Query.ofFragments .sqlite (s.fragments table)).sql := by
  have hlist : Reads ok Free s.columnText (Ready ok) := by
    rw [columnText]
    split
    · exact Spelled.reads hok (by decide)
    · exact reads_joinWith (reads_comma hok) hcolumns
  have hterms : Reads ok (Ready ok) s.orderText (Ready ok) := by
    rw [orderText]
    split
    · exact reads_empty
    · have hlead : Reads ok (Ready ok) " ORDER BY " Free := Joint.reads hok (by decide)
      refine hlead.append (reads_joinWith (reads_comma hok) (List.forall_mem_map.mpr ?_))
      intro t ht
      have hword : Spelled t.direction.word := by cases t.direction <;> decide
      exact ((horder t ht).append (reads_blank hok)).append (hword.reads hok)
  have hselect : Reads ok Free "SELECT " Free := Fixed.reads hok (by decide)
  have hfrom : Reads ok (Ready ok) " FROM " Free := Joint.reads hok (by decide)
  exact .ofFragments rfl (.text (((hselect.append hlist).append hfrom).append htable)
    (Condition.reads_clause hok hconditions (.last hterms)))

theorem Insert.endsOnce {s : Insert} (hcolumns : ∀ c ∈ s.columns, Reads ok Free c (Ready ok)) :
    EndsOnce ok (Query.ofFragments .sqlite (s.fragments table)).sql := by
  have hlist : Reads ok (Ready ok) s.columnText (Ready ok) := by
    rw [columnText]
    split
    · exact reads_empty
    · exact reads_parentheses hok hcolumns
  have hinsert : Reads ok Free "INSERT INTO " Free := Fixed.reads hok (by decide)
  have hvalues : Reads ok (Ready ok) " VALUES (" Free := Joint.reads hok (by decide)
  have hclose : Reads ok (Ready ok) ")" Free := Joint.reads hok (by decide)
  exact .ofFragments (s := ")") rfl (.text (((hinsert.append htable).append hlist).append hvalues)
    (reads_values hok s.values (.last hclose.toReady)).ofReady)

theorem Update.endsOnce {s : Update}
    (hassignments : ∀ e ∈ s.assignments, Reads ok Free e.name (Ready ok))
    (hconditions : ∀ c ∈ s.conditions, Reads ok Free c.column (Ready ok)) :
    EndsOnce ok (Query.ofFragments .sqlite (s.fragments table)).sql := by
  have hupdate : Reads ok Free "UPDATE " Free := Fixed.reads hok (by decide)
  have hclauses := reads_setClause hok hassignments
    (Condition.reads_clause hok hconditions (.last (s := "") reads_empty))
  rw [← List.append_assoc] at hclauses
  exact .ofFragments (s := "") rfl (.text (hupdate.append htable) hclauses)

theorem Delete.endsOnce {s : Delete}
    (hconditions : ∀ c ∈ s.conditions, Reads ok Free c.column (Ready ok)) :
    EndsOnce ok (Query.ofFragments .sqlite (s.fragments table)).sql := by
  have hdelete : Reads ok Free "DELETE FROM " Free := Fixed.reads hok (by decide)
  exact .ofFragments (s := "") rfl (.text (hdelete.append htable)
    (Condition.reads_clause hok hconditions (.last reads_empty)))

end

/-! ## Statements that define tables -/

section

variable {ok : Token → Prop} (hok : ∀ t, isGrammar t = true → ok t)
include hok

/-- Words with blanks between them. -/
theorem reads_words {first : String} (hfirst : Reads ok Free first (Ready ok)) {words : List String}
    (h : ∀ w ∈ words, Reads ok Free w (Ready ok)) :
    Reads ok Free (joinWith " " (first :: words)) (Ready ok) :=
  reads_joinWith (reads_blank hok) (List.forall_mem_cons.mpr ⟨hfirst, h⟩)

/-- A clause is read as its name between words and marks, and then its default. -/
theorem ColumnClause.reads_text {c : ColumnClause} (hname : Reads ok Free c.name (Ready ok))
    (hdefault : ∀ v ∈ c.defaultValue, Reads ok Free (Dialect.sqlite.literal v) (Ready ok)) :
    Reads ok Free (c.text .sqlite) (Ready ok) := by
  have hstorage : Spelled (Dialect.sqlite.storageType c.storage) := by
    cases c.storage <;> decide
  have hkey : ∀ w ∈ c.keyWords .sqlite, Spelled w := by
    rw [keyWords]
    cases c.primaryKey <;> cases c.autoIncrement <;> decide
  have hnull : ∀ w ∈ (if c.nullable then [] else ["NOT NULL"]), Spelled w := by
    cases c.nullable <;> decide
  have hvalue : ∀ w ∈ c.defaultWords .sqlite, Reads ok Free w (Ready ok) := by
    rw [defaultWords]
    cases hv : c.defaultValue with
    | none => exact List.forall_mem_nil _
    | some v =>
        have hword : Reads ok Free "DEFAULT " Free := Fixed.reads hok (by decide)
        exact List.forall_mem_singleton.mpr (hword.append (hdefault v hv))
  refine reads_words hok hname (List.forall_mem_cons.mpr ⟨hstorage.reads hok, ?_⟩)
  exact List.forall_mem_append.mpr ⟨List.forall_mem_append.mpr
    ⟨fun w hw => (hkey w hw).reads hok, fun w hw => (hnull w hw).reads hok⟩, hvalue⟩

theorem CreateTable.endsOnce {s : CreateTable} {table : String}
    (htable : Reads ok Free table (Ready ok))
    (hnames : ∀ c ∈ s.columns, Reads ok Free c.name (Ready ok))
    (hdefaults : ∀ c ∈ s.columns, ∀ v ∈ c.defaultValue,
      Reads ok Free (Dialect.sqlite.literal v) (Ready ok)) :
    EndsOnce ok (s.text .sqlite table) := by
  have hcreate : Reads ok Free "CREATE TABLE " Free := Fixed.reads hok (by decide)
  have hexists : Fixed (if s.ifNotExists then "IF NOT EXISTS " else "") := by
    cases s.ifNotExists <;> decide
  have hcolumns : ∀ x ∈ s.columns.map (fun c => c.text .sqlite), Reads ok Free x (Ready ok) :=
    List.forall_mem_map.mpr fun c hc => c.reads_text hok (hnames c hc) (hdefaults c hc)
  exact ⟨_, rfl, ((hcreate.append (hexists.reads hok)).append htable).append
    (reads_parentheses hok hcolumns)⟩

omit hok in
/-- What is built is the text over the table.  Without a table or columns there is no
    query. -/
theorem CreateTable.table_of_build {s : CreateTable} {q : Query} (h : s.build .sqlite = .ok q) :
    ∃ t, s.table = some t ∧ q = Query.plain (s.text .sqlite t) := by
  rw [build] at h
  cases htable : givenTable s.table .missingTable with
  | error e =>
      rw [htable] at h
      exact nomatch h
  | ok t =>
      rw [htable] at h
      refine ⟨t, table_of_givenTable htable, ?_⟩
      cases hcolumns : s.columns.isEmpty with
      | true =>
          rw [hcolumns] at h
          exact nomatch h
      | false =>
          rw [hcolumns] at h
          cases hnamed : s.columns.any fun c => allBlank c.name with
          | true =>
              rw [hnamed] at h
              exact nomatch h
          | false =>
              rw [hnamed] at h
              exact (Except.ok.inj h).symm

theorem ColumnDesign.reads_columnType (c : ColumnDesign) :
    Reads ok Free (Dialect.sqlite.columnType c) (Ready ok) := by
  have hclose : Reads ok (Ready ok) ")" Free := Joint.reads hok (by decide)
  obtain ⟨name, dataType, length, precision, scale, nullable, key, generated⟩ := c
  cases dataType with
  | string =>
      cases length with
      | none => exact Spelled.reads hok (s := "TEXT") (by decide)
      | some n =>
          have hopen : Reads ok Free ("VARCHAR" ++ "(") Free := Fixed.reads hok (by decide)
          exact ((hopen.append (reads_ofNat hok _)).append hclose).toReady
  | decimal =>
      have hopen : Reads ok Free ("DECIMAL" ++ "(") Free := Fixed.reads hok (by decide)
      exact ((((hopen.append (reads_ofNat hok _)).append (reads_comma hok)).append
        (reads_ofNat hok _)).append hclose).toReady
  | integer => exact Spelled.reads hok (s := "INTEGER") (by decide)
  | dateTime => exact Spelled.reads hok (s := "DATETIME") (by decide)
  | boolean => exact Spelled.reads hok (s := "BOOLEAN") (by decide)

theorem ColumnDesign.reads_definition {c : ColumnDesign}
    (hname : Reads ok Free (Dialect.sqlite.quote c.name) (Ready ok)) :
    Reads ok Free (c.definition .sqlite) (Ready ok) := by
  have hwords : ∀ w ∈ c.constraintWords .sqlite, Spelled w := by
    rw [constraintWords, markTrails]
    cases c.isAutoIncrementing <;> cases c.isPrimaryKey <;> cases c.admitsNull <;> decide
  exact reads_words hok hname (List.forall_mem_cons.mpr
    ⟨c.reads_columnType hok, fun w hw => (hwords w hw).reads hok⟩)

theorem TableDesign.endsOnce {t : TableDesign}
    (htable : Reads ok Free (Dialect.sqlite.quote t.tableName) (Ready ok))
    (hcolumns : ∀ c ∈ t.columns, Reads ok Free (Dialect.sqlite.quote c.name) (Ready ok)) :
    EndsOnce ok (t.createText .sqlite) := by
  have hcreate : Reads ok Free "CREATE TABLE " Free := Fixed.reads hok (by decide)
  have hopen : Reads ok (Ready ok) " (\n" Free := Joint.reads hok (by decide)
  have hnext : Reads ok (Ready ok) ",\n" Free := Joint.reads hok (by decide)
  have hclose : Reads ok (Ready ok) "\n)" Free := Joint.reads hok (by decide)
  have hindent : Reads ok Free "    " Free := Fixed.reads hok (by decide)
  have hlines : ∀ x ∈ t.columns.map (fun c => "    " ++ c.definition .sqlite),
      Reads ok Free x (Ready ok) :=
    List.forall_mem_map.mpr fun c hc => hindent.append (c.reads_definition hok (hcolumns c hc))
  exact ⟨_, rfl, (hcreate.append htable).append
    ((hopen.append (reads_joinWith hnext hlines)).append hclose).toReady⟩

end

/-! ## Requests -/

/-- What is sent to a database: a selection, or a statement that changes it.  Operations
    send nothing else. -/
inductive Request
  | selection (s : Select)
  | change (s : Statement)

namespace Request

/-- The query of a request. -/
def build : Request → Except Incomplete Query
  | selection s => s.build .sqlite
  | change s => s.build .sqlite

/-- The names of tables and columns that a request is made with. -/
def names : Request → List String
  | selection s => (Manipulation.select s).names
  | change (.insert s) => (Manipulation.insert s).names
  | change (.update s) => (Manipulation.update s).names
  | change (.delete s) => (Manipulation.delete s).names
  | change (.createTable s) => s.table.toList ++ s.columns.map ColumnClause.name
  | change (.createDesigned t) => t.tableName :: t.columns.map ColumnDesign.name
  | change (.renameTable old new) => [old, new]
  | change (.dropTable table) => [table]

/-- The values that a request is written with: the defaults of new columns.  All other
    values are bound. -/
def literals : Request → List Value
  | change (.createTable s) => s.columns.filterMap ColumnClause.defaultValue
  | _ => []

/-- All names may stand in a statement. -/
def Named (r : Request) : Prop := ∀ name ∈ r.names, Dialect.sqlite.isValidName name = true

variable {r : Request} {q : Query} {ok : Token → Prop}

/-- A statement that binds values is read as one statement, if its names are. -/
theorem endsOnce_manipulation {m : Manipulation} (hbuild : m.build .sqlite = .ok q)
    (hok : ∀ t, isGrammar t = true → ok t)
    (hnames : ∀ name ∈ m.names, Reads ok Free name (Ready ok)) : EndsOnce ok q.sql := by
  obtain ⟨t, ht, rfl⟩ := Manipulation.build_eq_ok hbuild
  have htable : (∀ name ∈ m.table?.toList, Reads ok Free name (Ready ok)) →
      Reads ok Free t (Ready ok) := fun h => h t (Option.mem_toList.mpr ht)
  cases m with
  | select s =>
      simp only [Manipulation.names, List.forall_mem_append, List.forall_mem_map] at hnames
      obtain ⟨⟨⟨hfrom, hcolumns⟩, hconditions⟩, horder⟩ := hnames
      exact Select.endsOnce hok (htable hfrom) hcolumns hconditions horder
  | insert s =>
      simp only [Manipulation.names, List.forall_mem_append] at hnames
      exact Insert.endsOnce hok (htable hnames.1) hnames.2
  | update s =>
      simp only [Manipulation.names, List.forall_mem_append, List.forall_mem_map] at hnames
      obtain ⟨⟨hinto, hassignments⟩, hconditions⟩ := hnames
      exact Update.endsOnce hok (htable hinto) hassignments hconditions
  | delete s =>
      simp only [Manipulation.names, List.forall_mem_append, List.forall_mem_map] at hnames
      exact Delete.endsOnce hok (htable hnames.1) hnames.2

/-- **A REQUEST IS READ** if its grammar, its names and its literals are.  Each kind of
    request is read by its own law, in the order of its text. -/
theorem endsOnce (hbuild : r.build = .ok q) (hok : ∀ t, isGrammar t = true → ok t)
    (hnames : ∀ name ∈ r.names, Reads ok Free name (Ready ok)
      ∧ Reads ok Free (Dialect.sqlite.quote name) (Ready ok))
    (hliterals : ∀ v ∈ r.literals, Reads ok Free (Dialect.sqlite.literal v) (Ready ok)) :
    EndsOnce ok q.sql := by
  have hbare name (h : name ∈ r.names) := (hnames name h).1
  have hquote name (h : name ∈ r.names) := (hnames name h).2
  cases r with
  | selection s => exact endsOnce_manipulation (m := .select s) hbuild hok hbare
  | change s =>
      cases s with
      | insert s => exact endsOnce_manipulation (m := .insert s) hbuild hok hbare
      | update s => exact endsOnce_manipulation (m := .update s) hbuild hok hbare
      | delete s => exact endsOnce_manipulation (m := .delete s) hbuild hok hbare
      | createTable s =>
          obtain ⟨t, ht, rfl⟩ := CreateTable.table_of_build hbuild
          obtain ⟨htable, hcolumns⟩ := List.forall_mem_append.mp hbare
          refine CreateTable.endsOnce hok (htable t (Option.mem_toList.mpr ht))
            (List.forall_mem_map.mp hcolumns) fun c hc v hv => ?_
          exact hliterals v (List.mem_filterMap.mpr ⟨c, hc, hv⟩)
      | createDesigned t =>
          obtain rfl := Except.ok.inj hbuild
          obtain ⟨htable, hcolumns⟩ := List.forall_mem_cons.mp hquote
          exact TableDesign.endsOnce hok htable (List.forall_mem_map.mp hcolumns)
      | renameTable old new =>
          obtain rfl := Except.ok.inj hbuild
          obtain ⟨hold, hnew⟩ := List.forall_mem_cons.mp hbare
          have halter : Reads ok Free "ALTER TABLE " Free := Fixed.reads hok (by decide)
          have hto : Reads ok (Ready ok) " RENAME TO " Free := Joint.reads hok (by decide)
          have hnew := hnew new (List.mem_singleton_self _)
          exact ⟨_, rfl, ((halter.append hold).append hto).append hnew⟩
      | dropTable table =>
          obtain rfl := Except.ok.inj hbuild
          have hdrop : Reads ok Free "DROP TABLE IF EXISTS " Free := Fixed.reads hok (by decide)
          exact ⟨_, rfl, hdrop.append (hbare table (List.mem_singleton_self _))⟩

/-- **EVERY REQUEST IS ONE STATEMENT** over its names, if these are valid.  A valid name
    is one word, so it is allowed wherever it stands. -/
theorem oneStatement (hbuild : r.build = .ok q) (hnamed : r.Named) :
    OneStatement r.names r.literals q.sql := by
  refine EndsOnce.oneStatement (endsOnce hbuild (fun _ => .grammar) (fun name hname => ?_) ?_)
  · have hvalid := hnamed name hname
    have hquote : Dialect.sqlite.quote name = quoted Quote.double.char Quote.double.char name := rfl
    have hword : ∀ c ∈ name.toList, isWordChar c = true := by
      intro c hc
      rw [isWordChar, Identifier.isBody_of_mem hvalid hc]
      rfl
    constructor
    · exact reads_iff.mpr ⟨_, tokens?_word (Identifier.toList_ne_nil hvalid) hword,
        List.forall_mem_singleton.mpr (.bare hname hvalid)⟩
    · rw [hquote]
      exact reads_iff.mpr ⟨_, tokens?_quoted .double name,
        List.forall_mem_singleton.mpr (.inQuotes hname hvalid)⟩
  · intro v hv
    exact reads_iff.mpr ⟨_, v.tokens?_eq, fun t ht => .literal hv ht⟩

end Request

end Gridbase
