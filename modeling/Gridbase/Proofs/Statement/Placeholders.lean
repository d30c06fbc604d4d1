import Gridbase.Proofs.Identifier
import Gridbase.Proofs.Statement.Calls

/-! # Values and placeholders

    A value is bound where its placeholder stands and nowhere else.  The text of a
    statement is searched for placeholders as a backend does it (`placeholdersIn`):
    a placeholder begins with the mark of the dialect, which stands in no name, no
    operator and no word of a statement.

    A SITE is a value with the text right before its place.  Fragments BIND sites
    when every value follows the text of its site and is itself followed by text
    that ends the token (`Binds`).

    * `Binds.markedTokens_write`: the placeholders are numbered from left to right.
    * `Binds.getElem?_collect`: the parameters hold the values of the sites.
    * `Binds.exists_place`: the placeholder of a number stands at its site.
    * `Manipulation.binds`: every statement binds its sites.
    * `Manipulation.values_are_bound`: no value is in a text, and queries line up with the
      sites of their statements. -/

namespace Gridbase

open Gridbase.Text

/-! ## Placeholders in a text -/

/-- The mark that a placeholder begins with. -/
def Dialect.placeholderMark : Dialect → Char
  | .sqlite => '?'
  | .sqlServer => '@'
  | .postgres => '$'

/-- The tokens that begin with a mark: the mark and the letters, digits and underscores
    that follow it. -/
def markedTokens (mark : Char) : List Char → List (List Char)
  | [] => []
  | c :: cs =>
      if c = mark then (c :: cs.takeWhile Identifier.isBody) :: markedTokens mark cs
      else markedTokens mark cs

/-- The placeholders in a text from left to right: its mark with the letters and digits
    behind it. -/
def Dialect.placeholdersIn (d : Dialect) (sql : String) : List String :=
  (markedTokens d.placeholderMark sql.toList).map String.ofList

theorem Dialect.isBody_placeholderMark (d : Dialect) :
    Identifier.isBody d.placeholderMark = false := by
  cases d <;> rfl

/-- The mark does not stand among body characters. -/
theorem Dialect.placeholderMark_notMem (d : Dialect) {body : List Char}
    (h : ∀ c ∈ body, Identifier.isBody c = true) : d.placeholderMark ∉ body := by
  intro hm
  have hbody := h _ hm
  rw [d.isBody_placeholderMark] at hbody
  exact nomatch hbody

/-- A placeholder is its mark and then only body characters. -/
theorem Dialect.toList_placeholder (d : Dialect) (i : Nat) :
    ∃ body, (d.placeholder i).toList = d.placeholderMark :: body
      ∧ ∀ c ∈ body, Identifier.isBody c = true := by
  have hdigits (n : Nat) : ∀ c ∈ digits n, Identifier.isBody c = true := by
    intro c hc
    simp [Identifier.isBody, Char.isAlphanum, isDigit_of_mem_digits hc]
  cases d with
  | sqlite | postgres =>
      exact ⟨digits (i + 1), by simp [placeholder, placeholderMark, Text.ofNat], hdigits _⟩
  | sqlServer =>
      refine ⟨'p' :: digits i, by simp [placeholder, placeholderMark, Text.ofNat], ?_⟩
      intro c hc
      rcases List.mem_cons.mp hc with rfl | hc
      · rfl
      · exact hdigits i c hc

/-- A text without the mark has no tokens. -/
theorem markedTokens_append {mark : Char} {a : List Char} (h : mark ∉ a) (b : List Char) :
    markedTokens mark (a ++ b) = markedTokens mark b := by
  induction a with
  | nil => rfl
  | cons c a ih =>
      have hc : ¬ c = mark := fun hcm => h (hcm ▸ List.mem_cons_self ..)
      rw [List.cons_append, markedTokens, if_neg hc, ih fun hm => h (List.mem_cons_of_mem _ hm)]

/-- There are as many tokens as marks. -/
theorem length_markedTokens (mark : Char) (cs : List Char) :
    (markedTokens mark cs).length = cs.count mark := by
  induction cs with
  | nil => rfl
  | cons c cs ih =>
      rw [markedTokens, List.count_cons]
      by_cases hc : c = mark
      · rw [if_pos hc, List.length_cons, ih, if_pos (beq_iff_eq.mpr hc)]
      · rw [if_neg hc, ih, if_neg (by simpa using hc)]
        rfl

/-- The text begins with a character that ends a token. -/
def EndsToken (cs : List Char) : Prop := ∃ c rest, cs = c :: rest ∧ Identifier.isBody c = false

/-- Body characters are taken up to the end of the token. -/
theorem takeWhile_isBody {body rest : List Char} (hbody : ∀ c ∈ body, Identifier.isBody c = true)
    (hrest : EndsToken rest) : (body ++ rest).takeWhile Identifier.isBody = body := by
  obtain ⟨c, tail, rfl, hc⟩ := hrest
  rw [List.takeWhile_append_of_pos hbody, List.takeWhile_cons_of_neg (by simp [hc]),
    List.append_nil]

/-- A placeholder is one token. -/
theorem markedTokens_placeholder (d : Dialect) (i : Nat) {rest : List Char}
    (h : EndsToken rest) :
    markedTokens d.placeholderMark ((d.placeholder i).toList ++ rest)
      = (d.placeholder i).toList :: markedTokens d.placeholderMark rest := by
  obtain ⟨body, hbody, hall⟩ := d.toList_placeholder i
  rw [hbody, List.cons_append, markedTokens, if_pos rfl, takeWhile_isBody hall h,
    markedTokens_append (d.placeholderMark_notMem hall)]

/-! ## Sites -/

/-- A value and the text right before its place.  The text says what the value is for: a
    column with its operator, or a position in a list. -/
structure Site where
  lead : String
  value : Value
deriving DecidableEq

/-- The text has no placeholder mark. -/
def Unmarked (d : Dialect) (s : String) : Prop := d.placeholderMark ∉ s.toList

instance (d : Dialect) (s : String) : Decidable (Unmarked d s) := inferInstanceAs (Decidable (¬ _))

theorem Unmarked.append {d : Dialect} {a b : String} (ha : Unmarked d a) (hb : Unmarked d b) :
    Unmarked d (a ++ b) := by
  intro h
  rw [String.toList_append] at h
  exact (List.mem_append.mp h).elim ha hb

/-- A valid name has no mark. -/
theorem unmarked_of_isValidName {d : Dialect} {name : String} (h : d.isValidName name = true) :
    Unmarked d name :=
  Identifier.not_mem_of_isValid h d.isBody_placeholderMark

/-- The fragments go on with a text that ends a token, so a placeholder before them is
    not made longer. -/
def TextFollows : List Fragment → Prop
  | .text s :: _ => EndsToken s.toList
  | _ => False

/-- The fragments bind the values of the sites, each after the text of its site.  All
    other text has no mark of a placeholder in it, so what looks like one is one. -/
inductive Binds (d : Dialect) : List Fragment → List Site → Prop
  | nil : Binds d [] []
  | text {s : String} {rest : List Fragment} {sites : List Site} (unmarked : Unmarked d s)
      (tail : Binds d rest sites) : Binds d (.text s :: rest) sites
  | bind {front lead : String} {v : Value} {rest : List Fragment} {sites : List Site}
      (unmarkedFront : Unmarked d front) (unmarkedLead : Unmarked d lead)
      (follows : TextFollows rest) (tail : Binds d rest sites) :
      Binds d (.text (front ++ lead) :: .parameter v :: rest) (⟨lead, v⟩ :: sites)

/-- Text that follows is written first. -/
theorem endsToken_write {d : Dialect} {fragments : List Fragment} (h : TextFollows fragments)
    (i : Nat) : EndsToken (Query.write d i fragments).toList := by
  cases fragments with
  | nil => exact h.elim
  | cons f rest =>
      cases f with
      | parameter v => exact h.elim
      | text s =>
          obtain ⟨c, cs, hs, hc⟩ := h
          refine ⟨c, cs ++ (Query.write d i rest).toList, ?_, hc⟩
          rw [Query.write, String.toList_append, hs, List.cons_append]

namespace Binds

variable {d : Dialect} {fragments : List Fragment} {sites : List Site}

/-- **THE PLACEHOLDERS ARE NUMBERED** from left to right, one for each site. -/
theorem markedTokens_write (h : Binds d fragments sites) :
    ∀ i, markedTokens d.placeholderMark (Query.write d i fragments).toList
      = (List.range' i sites.length).map fun k => (d.placeholder k).toList := by
  induction h with
  | nil => intro i; rfl
  | text unmarked tail ih =>
      intro i
      rw [Query.write, String.toList_append, markedTokens_append unmarked, ih]
  | @bind front lead v rest sites unmarkedFront unmarkedLead follows tail ih =>
      intro i
      rw [Query.write, Query.write, String.toList_append,
        markedTokens_append (unmarkedFront.append unmarkedLead), String.toList_append,
        markedTokens_placeholder d i (endsToken_write follows (i + 1)), ih, List.length_cons,
        List.range'_succ, List.map_cons]

/-- **THE PARAMETERS HOLD THE VALUES** of the sites under the names of their numbers. -/
theorem getElem?_collect (h : Binds d fragments sites) :
    ∀ i k : Nat, (Query.collect i fragments)[k]?
      = sites[k]?.map fun s => Parameter.mk (Query.parameterName (i + k)) s.value := by
  induction h with
  | nil => intro i k; rfl
  | text unmarked tail ih => intro i k; exact ih i k
  | bind unmarkedFront unmarkedLead follows tail ih =>
      intro i k
      rw [Query.collect, Query.collect]
      cases k with
      | zero => rfl
      | succ k =>
          rw [List.getElem?_cons_succ, List.getElem?_cons_succ, ih, Nat.add_right_comm]
          rfl

/-- The values of the parameters are those of the sites, in order. -/
theorem values_collect (h : Binds d fragments sites) :
    ∀ i, (Query.collect i fragments).map Parameter.value = sites.map Site.value := by
  induction h with
  | nil => intro i; rfl
  | text unmarked tail ih => intro i; exact ih i
  | bind unmarkedFront unmarkedLead follows tail ih =>
      intro i
      rw [Query.collect, Query.collect, List.map_cons, ih, List.map_cons]

/-- There are as many parameters as sites. -/
theorem length_collect (h : Binds d fragments sites) :
    ∀ i, (Query.collect i fragments).length = sites.length := by
  induction h with
  | nil => intro i; rfl
  | text unmarked tail ih => intro i; exact ih i
  | bind unmarkedFront unmarkedLead follows tail ih =>
      intro i
      rw [Query.collect, Query.collect, List.length_cons, ih, List.length_cons]

/-- **EVERY PLACEHOLDER STANDS AT ITS SITE**: the text of the site comes right before it,
    and as many placeholders come before that as its number says. -/
theorem exists_place (h : Binds d fragments sites) :
    ∀ i k site, sites[k]? = some site → ∃ before after : String,
      Query.write d i fragments = before ++ site.lead ++ d.placeholder (i + k) ++ after
        ∧ (d.placeholdersIn before).length = k := by
  have hcount (s : String) : (d.placeholdersIn s).length = s.toList.count d.placeholderMark := by
    rw [Dialect.placeholdersIn, List.length_map, length_markedTokens]
  have hnone {s : String} (hs : Unmarked d s) : s.toList.count d.placeholderMark = 0 :=
    List.count_eq_zero.mpr hs
  induction h with
  | nil => intro i k site hsite; exact nomatch hsite
  | @text s rest sites unmarked tail ih =>
      intro i k site hsite
      obtain ⟨before, after, hwrite, hlength⟩ := ih i k site hsite
      refine ⟨s ++ before, after, ?_, ?_⟩
      · rw [Query.write, hwrite]
        simp only [String.append_assoc]
      · rw [hcount] at hlength ⊢
        rw [String.toList_append, List.count_append, hnone unmarked, hlength, Nat.zero_add]
  | @bind front lead v rest sites unmarkedFront unmarkedLead follows tail ih =>
      intro i k site hsite
      rw [Query.write, Query.write]
      cases k with
      | zero =>
          cases hsite
          refine ⟨front, Query.write d (i + 1) rest, ?_, ?_⟩
          · simp only [String.append_assoc, Nat.add_zero]
          · rw [hcount, hnone unmarkedFront]
      | succ k =>
          obtain ⟨before, after, hwrite, hlength⟩ := ih (i + 1) k site hsite
          refine ⟨front ++ lead ++ d.placeholder i ++ before, after, ?_, ?_⟩
          · rw [hwrite, Nat.add_right_comm, Nat.add_assoc]
            simp only [String.append_assoc]
          · -- the placeholder before it has one mark, and its lead has none
            obtain ⟨body, hbody, hall⟩ := d.toList_placeholder i
            rw [hcount] at hlength ⊢
            rw [String.toList_append, String.toList_append, List.count_append, List.count_append,
              hnone (unmarkedFront.append unmarkedLead), hbody, List.count_cons_self,
              List.count_eq_zero.mpr (d.placeholderMark_notMem hall), hlength]
            omega

end Binds

/-! ## Sites of statements -/

/-- The place of a condition's value. -/
def Condition.site (c : Condition) : Site :=
  ⟨c.column ++ " " ++ c.operator.symbol ++ " ", c.value⟩

/-- The place of an assigned value. -/
def Entry.site (e : Entry) : Site := ⟨e.name ++ " = ", e.value⟩

/-- The places of inserted values.  The first opens the list, and the others follow a
    comma. -/
def Insert.sites : List Value → List Site
  | [] => []
  | v :: rest => ⟨"VALUES (", v⟩ :: rest.map (Site.mk ", ")

/-- The places of a statement's values: assignments before conditions, and each in the order
    in which they were added. -/
def Manipulation.sites : Manipulation → List Site
  | .select s => s.conditions.map Condition.site
  | .insert s => Insert.sites s.values
  | .update s => s.assignments.map Entry.site ++ s.conditions.map Condition.site
  | .delete s => s.conditions.map Condition.site

theorem unmarked_joinWith {d : Dialect} {sep : String} (hsep : Unmarked d sep)
    {items : List String} (h : ∀ s ∈ items, Unmarked d s) : Unmarked d (joinWith sep items) := by
  induction items with
  | nil => exact List.not_mem_nil
  | cons s rest ih =>
      have hs := h s (List.mem_cons_self ..)
      cases rest with
      | nil => exact hs
      | cons t rest =>
          exact (hs.append hsep).append (ih fun u hu => h u (List.mem_cons_of_mem _ hu))

section

variable {d : Dialect} {rest : List Fragment} {sites : List Site}

/-- A condition binds its value. -/
theorem Condition.binds {lead : String} (hlead : Unmarked d lead) {c : Condition}
    (hname : d.isValidName c.column = true) (follows : TextFollows rest)
    (tail : Binds d rest sites) : Binds d (c.fragments lead ++ rest) (c.site :: sites) := by
  have hblank : Unmarked d " " := by cases d <;> decide
  have hsymbol : Unmarked d c.operator.symbol := by cases d <;> cases c.operator <;> decide
  have htext : lead ++ c.column ++ " " ++ c.operator.symbol ++ " " = lead ++ c.site.lead := by
    simp only [site, String.append_assoc]
  rw [fragments, htext]
  exact .bind hlead ((((unmarked_of_isValidName hname).append hblank).append hsymbol).append hblank)
    follows tail

/-- The conditions after the first bind their values in order. -/
theorem Condition.binds_restFragments (follows : TextFollows rest) (tail : Binds d rest sites) :
    ∀ {cs : List Condition}, (∀ c ∈ cs, d.isValidName c.column = true) →
      TextFollows (restFragments cs ++ rest)
        ∧ Binds d (restFragments cs ++ rest) (cs.map site ++ sites) := by
  intro cs
  induction cs with
  | nil => intro _; exact ⟨follows, tail⟩
  | cons c cs ih =>
      intro h
      obtain ⟨hfollows, hbinds⟩ := ih fun x hx => h x (List.mem_cons_of_mem _ hx)
      have hword : Unmarked d c.connector.word := by cases d <;> cases c.connector <;> decide
      rw [restFragments, List.append_assoc]
      refine ⟨?_, Condition.binds hword (h c (List.mem_cons_self ..)) hfollows hbinds⟩
      -- both connectors begin with a blank
      cases hc : c.connector <;> exact ⟨' ', _, by simp [Connector.word]; rfl, rfl⟩

/-- The WHERE clause binds the values of its conditions. -/
theorem Condition.binds_clause (follows : TextFollows rest) (tail : Binds d rest sites)
    {cs : List Condition} (h : ∀ c ∈ cs, d.isValidName c.column = true) :
    TextFollows (clause cs ++ rest) ∧ Binds d (clause cs ++ rest) (cs.map site ++ sites) := by
  cases cs with
  | nil => exact ⟨follows, tail⟩
  | cons c cs =>
      obtain ⟨hfollows, hbinds⟩ :=
        Condition.binds_restFragments follows tail fun x hx => h x (List.mem_cons_of_mem _ hx)
      have hword : Unmarked d " WHERE " := by cases d <;> decide
      rw [clause, List.append_assoc]
      refine ⟨?_, Condition.binds hword (h c (List.mem_cons_self ..)) hfollows hbinds⟩
      exact ⟨' ', _, by simp; rfl, rfl⟩

/-- An assignment binds its value. -/
theorem Update.binds_assignment {lead : String} (hlead : Unmarked d lead) {e : Entry}
    (hname : d.isValidName e.name = true) (follows : TextFollows rest)
    (tail : Binds d rest sites) : Binds d (assignment lead e ++ rest) (e.site :: sites) := by
  have hequals : Unmarked d " = " := by cases d <;> decide
  have htext : lead ++ e.name ++ " = " = lead ++ e.site.lead := String.append_assoc
  rw [assignment, htext]
  exact .bind hlead ((unmarked_of_isValidName hname).append hequals) follows tail

/-- The SET clause binds the values of its assignments.  The first assignment follows
    the word, and the others a comma. -/
theorem Update.binds_setClause (follows : TextFollows rest) (tail : Binds d rest sites)
    {entries : List Entry} (h : ∀ e ∈ entries, d.isValidName e.name = true) :
    Binds d (setClause entries ++ rest) (entries.map Entry.site ++ sites) := by
  have hcomma : Unmarked d ", " := by cases d <;> decide
  have hword : Unmarked d " SET " := by cases d <;> decide
  -- the entries behind the first one, each after a comma
  have hrest : ∀ {es : List Entry}, (∀ e ∈ es, d.isValidName e.name = true) →
      TextFollows (es.flatMap (assignment ", ") ++ rest)
        ∧ Binds d (es.flatMap (assignment ", ") ++ rest) (es.map Entry.site ++ sites) := by
    intro es
    induction es with
    | nil => intro _; exact ⟨follows, tail⟩
    | cons e es ih =>
        intro h
        obtain ⟨hfollows, hbinds⟩ := ih fun x hx => h x (List.mem_cons_of_mem _ hx)
        rw [List.flatMap_cons, List.append_assoc]
        refine ⟨⟨',', _, by simp; rfl, rfl⟩, ?_⟩
        exact Update.binds_assignment hcomma (h e (List.mem_cons_self ..)) hfollows hbinds
  cases entries with
  | nil => exact tail
  | cons e entries =>
      obtain ⟨hfollows, hbinds⟩ := hrest fun x hx => h x (List.mem_cons_of_mem _ hx)
      rw [setClause, List.append_assoc]
      exact Update.binds_assignment hword (h e (List.mem_cons_self ..)) hfollows hbinds

end

/-- The values of an INSERT are bound after its first text.  The columns are part of
    that text. -/
theorem Insert.binds_values {d : Dialect} {front : String} (hfront : Unmarked d front)
    (values : List Value) :
    Binds d (.text (front ++ " VALUES (") :: valueFragments values ++ [.text ");"])
      (sites values) := by
  have hvalues : Unmarked d " VALUES (" := by cases d <;> decide
  have hend : Binds d [.text ");"] [] := .text (by cases d <;> decide) .nil
  have hcomma : Unmarked d ", " := by cases d <;> decide
  have hempty : Unmarked d "" := by cases d <;> decide
  -- a value after some text, and then the others, each after a comma
  have hfrom : ∀ (rest : List Value) (v : Value) {front lead : String}, Unmarked d front →
      Unmarked d lead →
      Binds d (.text (front ++ lead) :: valueFragments (v :: rest) ++ [.text ");"])
        (⟨lead, v⟩ :: rest.map (Site.mk ", ")) := by
    intro rest
    induction rest with
    | nil =>
        intro v front lead hfront hlead
        exact .bind hfront hlead ⟨')', [';'], rfl, rfl⟩ hend
    | cons w rest ih =>
        intro v front lead hfront hlead
        refine .bind hfront hlead ⟨',', [' '], rfl, rfl⟩ ?_
        exact ih w hempty hcomma
  cases values with
  | nil => exact .text (hfront.append hvalues) hend
  | cons v rest =>
      have htext : front ++ " VALUES (" = front ++ " " ++ "VALUES (" := by
        rw [String.append_assoc]
        rfl
      rw [htext]
      exact hfrom rest v (hfront.append (by cases d <;> decide)) (by cases d <;> decide)

/-- The column list of a SELECT holds names only. -/
theorem Select.unmarked_columnText {d : Dialect} {s : Select}
    (h : ∀ name ∈ s.columns, d.isValidName name = true) : Unmarked d s.columnText := by
  rw [columnText]
  split
  · cases d <;> decide
  · exact unmarked_joinWith (by cases d <;> decide) fun name hname =>
      unmarked_of_isValidName (h name hname)

/-- The ORDER BY clause holds names and directions only. -/
theorem Select.unmarked_orderText {d : Dialect} {s : Select}
    (h : ∀ t ∈ s.order, d.isValidName t.column = true) : Unmarked d s.orderText := by
  have hblank : Unmarked d " " := by cases d <;> decide
  have hdirection (x : Direction) : Unmarked d x.word := by cases d <;> cases x <;> decide
  rw [orderText]
  split
  · cases d <;> decide
  · refine Unmarked.append (by cases d <;> decide) ?_
    refine unmarked_joinWith (by cases d <;> decide) fun text htext => ?_
    obtain ⟨t, ht, rfl⟩ := List.mem_map.mp htext
    exact ((unmarked_of_isValidName (h t ht)).append hblank).append (hdirection t.direction)

/-- The column list of an INSERT holds names only. -/
theorem Insert.unmarked_columnText {d : Dialect} {s : Insert}
    (h : ∀ name ∈ s.columns, d.isValidName name = true) : Unmarked d s.columnText := by
  rw [columnText]
  split
  · cases d <;> decide
  · refine (Unmarked.append (by cases d <;> decide) ?_).append (by cases d <;> decide)
    exact unmarked_joinWith (by cases d <;> decide) fun name hname =>
      unmarked_of_isValidName (h name hname)

/-- **EVERY STATEMENT BINDS ITS SITES**, if its names are valid.  The names matter
    because they are the only part of the text that is not fixed: a valid one has no
    mark in it. -/
theorem Manipulation.binds {d : Dialect} {m : Manipulation} (hm : m.Named d) {table : String}
    (htable : m.table? = some table) : Binds d (m.fragments table) m.sites := by
  have hsemicolon : Unmarked d ";" := by cases d <;> decide
  have hend : Binds d [.text ";"] [] := .text hsemicolon .nil
  have hfollows : TextFollows [.text ";"] := ⟨';', [], rfl, rfl⟩
  -- texts hold no placeholder, so that the sites are those of the values
  cases m with
  | select s =>
      obtain ⟨hfrom, hcolumns, hconditions, horder⟩ := named_select.mp hm
      have htableName : Unmarked d table := unmarked_of_isValidName (hfrom table htable)
      have hselect : Unmarked d "SELECT " := by cases d <;> decide
      have hword : Unmarked d " FROM " := by cases d <;> decide
      have horderText := Select.unmarked_orderText horder
      have hrest : TextFollows [.text (s.orderText ++ ";")] := by
        show EndsToken _
        rw [Select.orderText]
        split
        · exact ⟨';', [], rfl, rfl⟩
        · exact ⟨' ', _, by simp; rfl, rfl⟩
      have htail : Binds d [.text (s.orderText ++ ";")] [] :=
        .text (horderText.append hsemicolon) .nil
      have hclause := (Condition.binds_clause hrest htail hconditions).2
      rw [List.append_nil] at hclause
      exact .text (((hselect.append (Select.unmarked_columnText hcolumns)).append hword).append
        htableName) hclause
  | insert s =>
      obtain ⟨hinto, hcolumns⟩ := named_insert.mp hm
      have htableName : Unmarked d table := unmarked_of_isValidName (hinto table htable)
      have hinsert : Unmarked d "INSERT INTO " := by cases d <;> decide
      exact Insert.binds_values
        ((hinsert.append htableName).append (Insert.unmarked_columnText hcolumns)) s.values
  | update s =>
      obtain ⟨hof, hassignments, hconditions⟩ := named_update.mp hm
      have htableName : Unmarked d table := unmarked_of_isValidName (hof table htable)
      have hupdate : Unmarked d "UPDATE " := by cases d <;> decide
      obtain ⟨hclauseFollows, hclause⟩ := Condition.binds_clause hfollows hend hconditions
      have hset := Update.binds_setClause hclauseFollows hclause hassignments
      rw [List.append_nil, ← List.append_assoc] at hset
      exact .text (hupdate.append htableName) hset
  | delete s =>
      obtain ⟨hof, hconditions⟩ := named_delete.mp hm
      have htableName : Unmarked d table := unmarked_of_isValidName (hof table htable)
      have hdelete : Unmarked d "DELETE FROM " := by cases d <;> decide
      have hclause := (Condition.binds_clause hfollows hend hconditions).2
      rw [List.append_nil] at hclause
      exact .text (hdelete.append htableName) hclause

/-! ## Values are bound -/

/-- The parameters of a query line up with the sites of its statement.  There are as
    many of one as of the other, in the same order. -/
structure Query.LinesUp (d : Dialect) (q : Query) (sites : List Site) : Prop where
  /-- The placeholders from left to right are those of the numbers of the parameters. -/
  placeholders : d.placeholdersIn q.sql = (List.range q.parameters.length).map d.placeholder
  /-- Every parameter has the name of its number and the value of its site. -/
  parameters : ∀ k : Nat,
    q.parameters[k]? = sites[k]?.map fun s => ⟨"@p" ++ Text.ofNat k, s.value⟩
  /-- Every placeholder stands at its site. -/
  places : ∀ k site, sites[k]? = some site → ∃ before after : String,
    q.sql = before ++ site.lead ++ d.placeholder k ++ after
      ∧ (d.placeholdersIn before).length = k

/-- Fragments that bind sites make a query that lines up with them.  The three parts
    come from the three laws on texts, parameters and places. -/
theorem Binds.linesUp {d : Dialect} {fragments : List Fragment} {sites : List Site}
    (h : Binds d fragments sites) : (Query.ofFragments d fragments).LinesUp d sites := by
  -- the parameter at a number is the value of the site there
  have hparameters : ∀ k : Nat, (Query.ofFragments d fragments).parameters[k]?
      = sites[k]?.map fun s => ⟨"@p" ++ Text.ofNat k, s.value⟩ := by
    intro k
    have hk := h.getElem?_collect 0 k
    rw [Nat.zero_add] at hk
    exact hk
  have hlength : (Query.ofFragments d fragments).parameters.length = sites.length :=
    h.length_collect 0
  refine ⟨?_, hparameters, ?_⟩
  · rw [hlength, Dialect.placeholdersIn]
    show (markedTokens _ (Query.write d 0 fragments).toList).map _ = _
    rw [h.markedTokens_write, List.map_map, List.range_eq_range']
    exact List.map_congr_left fun k _ => String.ofList_toList
  · intro k site hsite
    have hplace := h.exists_place 0 k site hsite
    rw [Nat.zero_add] at hplace
    exact hplace

/-- **VALUES ARE BOUND, NEVER WRITTEN.**  Calls that differ in values only make the same text
    or fail alike, and the query of a statement with valid names lines up with its sites. -/
theorem Manipulation.values_are_bound (d : Dialect) :
    (∀ a b : Calls, a.masked = b.masked →
      (a.made.build d).map Query.sql = (b.made.build d).map Query.sql)
    ∧ ∀ (m : Manipulation) (q : Query), m.Named d → m.build d = .ok q → q.LinesUp d m.sites := by
  refine ⟨?_, ?_⟩
  · intro a b h
    rw [← build_masked d a.made, ← build_masked d b.made, ← Calls.made_masked,
      ← Calls.made_masked, h]
  · intro m q hm hq
    obtain ⟨table, htable, rfl⟩ := build_eq_ok hq
    exact (Manipulation.binds hm htable).linesUp

/-- Calls that rename a person by number.  Whatever is given for the name is bound. -/
def renamingCalls (name : String) (number : Int64) : Calls :=
  .update [.ofTable "people", .assign "name" (.text name), .assign "seen" (.bool true),
    .condition ⟨.and, "id", .eq, .int number⟩]

/-- A name with a statement in it is bound like any other.  It is in the parameters
    only, and the text is that of any other name. -/
theorem renamingCalls_are_bound :
    ((renamingCalls "'; DROP TABLE people; --" 7).made.build .postgres).map Query.sql
        = ((renamingCalls "Ada" 8).made.build .postgres).map Query.sql
      ∧ Query.LinesUp .postgres
          ⟨"UPDATE people SET name = $1, seen = $2 WHERE id = $3;",
            [⟨"@p0", .text "'; DROP TABLE people; --"⟩, ⟨"@p1", .bool true⟩, ⟨"@p2", .int 7⟩]⟩
          (renamingCalls "'; DROP TABLE people; --" 7).made.sites :=
  ⟨(Manipulation.values_are_bound .postgres).1 _ _ (by decide),
    (Manipulation.values_are_bound .postgres).2 _ _ (by decide) rfl⟩

end Gridbase
