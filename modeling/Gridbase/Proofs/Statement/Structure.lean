import Gridbase.Proofs.Statement.ReadBack

/-! # The structure of a statement

    The text of a statement with valid names has one structure.  The OUTLINE of a
    statement is all of it except its values, and each of its parts is read back
    from the text: the items, the clauses, and the statement.

    * `Select.outline_eq`, `Insert.outline_eq`, `Update.outline_eq` and
      `Delete.outline_eq`: statements of one kind are read back.
    * `Manipulation.outline_of_sql_eq`: statements of one text have one outline. -/

namespace Gridbase

open Gridbase.Text

/-! ## Outlines -/

/-- A condition without its value.  The first one of a statement joins nothing.  Its
    connector is not written, and so cannot be read back. -/
structure Comparison where
  connector : Option Connector
  column : String
  operator : Operator
deriving DecidableEq

/-- The condition without its value. -/
def Condition.comparison (k : Option Connector) (c : Condition) : Comparison :=
  ⟨k, c.column, c.operator⟩

/-- The comparisons of a chain of conditions.  The first one loses its connector. -/
def Condition.comparisons : List Condition → List Comparison
  | [] => []
  | c :: rest => c.comparison none :: rest.map fun c => c.comparison (some c.connector)

/-- A statement without its values: all that its text shows.  Of inserted values their
    number is left. -/
inductive Outline
  | select (table : Option String) (columns : List String) (conditions : List Comparison)
      (order : List OrderTerm)
  | insert (table : Option String) (columns : List String) (values : Nat)
  | update (table : Option String) (assigned : List String) (conditions : List Comparison)
  | delete (table : Option String) (conditions : List Comparison)
deriving DecidableEq

/-- The outline of a statement. -/
def Manipulation.outline : Manipulation → Outline
  | .select s => .select s.table s.columns (Condition.comparisons s.conditions) s.order
  | .insert s => .insert s.table s.columns s.values.length
  | .update s =>
      .update s.table (s.assignments.map Entry.name) (Condition.comparisons s.conditions)
  | .delete s => .delete s.table (Condition.comparisons s.conditions)

theorem Condition.length_comparisons (cs : List Condition) :
    (comparisons cs).length = cs.length := by
  cases cs with
  | nil => rfl
  | cons c rest => rw [comparisons, List.length_cons, List.length_map, List.length_cons]

/-! ## The items of statements -/

namespace Comparison

/-- The words before a comparison: WHERE for the first, and its connector for any other.
    -/
def lead : Option Connector → String
  | none => " WHERE "
  | some k => k.word

/-- The comparison as written before its placeholder. -/
def text (c : Comparison) : String :=
  lead c.connector ++ (c.column ++ (" " ++ (c.operator.symbol ++ " ")))

/-- No words before a comparison are the beginning of others. -/
theorem lead_append_inj {k l : Option Connector} {r s : List Char}
    (h : (lead k).toList ++ r = (lead l).toList ++ s) : k = l ∧ r = s := by
  rcases k with _ | _ | _ <;> rcases l with _ | _ | _ <;> simp_all [lead, Connector.word]

/-- No operator before a blank is the beginning of another. -/
theorem symbol_append_inj {a b : Operator} {r s : List Char}
    (h : a.symbol.toList ++ (" ".toList ++ r) = b.symbol.toList ++ (" ".toList ++ s)) :
    a = b ∧ r = s := by
  cases a <;> cases b <;> simp_all [Operator.symbol]

/-- **COMPARISONS ARE READ BACK.** -/
theorem readBack_text (d : Dialect) :
    ReadBack (fun c : Comparison => d.isValidName c.column = true) text := by
  intro x y hx hy r s _ _ h
  simp only [text, String.toList_append, List.append_assoc] at h
  obtain ⟨hlead, h⟩ := lead_append_inj h
  obtain ⟨hcolumn, h⟩ := readBack_name d hx hy (endsToken_blank _) (endsToken_blank _) h
  obtain ⟨hsymbol, h⟩ := symbol_append_inj (List.append_cancel_left h)
  refine ⟨?_, h⟩
  cases x
  cases y
  cases hlead
  cases hcolumn
  cases hsymbol
  rfl

end Comparison

/-- **ORDER TERMS ARE READ BACK.** -/
theorem OrderTerm.readBack_text (d : Dialect) :
    ReadBack (fun t : OrderTerm => d.isValidName t.column = true) text := by
  intro x y hx hy r s _ _ h
  simp only [text, String.toList_append, List.append_assoc] at h
  obtain ⟨hcolumn, h⟩ := readBack_name d hx hy (endsToken_blank _) (endsToken_blank _) h
  have hword := List.append_cancel_left h
  obtain ⟨xcolumn, xdirection⟩ := x
  obtain ⟨ycolumn, ydirection⟩ := y
  cases hcolumn
  cases xdirection <;> cases ydirection <;> simp_all [Direction.word]

/-! ## Lists of columns -/

section

variable {d : Dialect} {r r' : List Char}

/-- The columns of a SELECT are read back.  A star stands for no columns, and is no
    name.  -/
theorem Select.columnText_append_inj {s t : Select}
    (hs : ∀ c ∈ s.columns, d.isValidName c = true) (ht : ∀ c ∈ t.columns, d.isValidName c = true)
    (hr : EndsList r) (hr' : EndsList r')
    (h : s.columnText.toList ++ r = t.columnText.toList ++ r') :
    s.columns = t.columns ∧ r = r' := by
  -- the star is not the beginning of a list of names
  have hstar {names : List String} {u v : List Char} (hne : names ≠ [])
      (hnames : ∀ c ∈ names, d.isValidName c = true) :
      ¬ "*".toList ++ u = (joinWith ", " names).toList ++ v := by
    intro heq
    obtain ⟨c, rest, hjoined, hc⟩ := exists_isBody_joinWith hne hnames
    rw [hjoined] at heq
    rw [← (List.cons.inj heq).1] at hc
    exact nomatch hc
  rw [columnText, columnText] at h
  by_cases hsc : s.columns = []
  · by_cases htc : t.columns = []
    · rw [hsc, htc] at h ⊢
      exact ⟨rfl, List.append_cancel_left h⟩
    · rw [if_pos (List.isEmpty_iff.mpr hsc), if_neg (mt List.isEmpty_iff.mp htc)] at h
      exact absurd h (hstar htc ht)
  · rw [if_neg (mt List.isEmpty_iff.mp hsc)] at h
    by_cases htc : t.columns = []
    · rw [if_pos (List.isEmpty_iff.mpr htc)] at h
      exact absurd h.symm (hstar hsc hs)
    · rw [if_neg (mt List.isEmpty_iff.mp htc)] at h
      exact names_append_inj hsc htc hs ht hr hr' h

/-- The order of a SELECT is read back.  Nothing follows it but the end of the
    statement.  -/
theorem Select.orderText_inj {s t : Select}
    (hs : ∀ x ∈ s.order, d.isValidName x.column = true)
    (ht : ∀ x ∈ t.order, d.isValidName x.column = true)
    (h : s.orderText.toList ++ [';'] = t.orderText.toList ++ [';']) : s.order = t.order := by
  have htext := List.append_cancel_right h
  rw [orderText, orderText] at htext
  -- a clause and no clause differ in their first character
  by_cases hso : s.order = []
  · by_cases hto : t.order = []
    · rw [hso, hto]
    · rw [if_pos (List.isEmpty_iff.mpr hso), if_neg (mt List.isEmpty_iff.mp hto),
        String.toList_append] at htext
      exact absurd htext.symm (List.cons_ne_nil _ _)
  · rw [if_neg (mt List.isEmpty_iff.mp hso)] at htext
    by_cases hto : t.order = []
    · rw [if_pos (List.isEmpty_iff.mpr hto), String.toList_append] at htext
      exact absurd htext (List.cons_ne_nil _ _)
    · rw [if_neg (mt List.isEmpty_iff.mp hto), String.toList_append, String.toList_append] at htext
      have hend : EndsList [';'] := ⟨';', [], rfl, rfl, by decide⟩
      exact ((OrderTerm.readBack_text d).joined hso hto hs ht hend hend
        (congrArg (· ++ [';']) (List.append_cancel_left htext))).1

/-- The columns of an INSERT are read back.  Without columns there are no parentheses,
    and the values follow at once. -/
theorem Insert.columnText_append_inj {s t : Insert}
    (hs : ∀ c ∈ s.columns, d.isValidName c = true) (ht : ∀ c ∈ t.columns, d.isValidName c = true)
    (h : s.columnText.toList ++ (" VALUES (".toList ++ r)
      = t.columnText.toList ++ (" VALUES (".toList ++ r')) :
    s.columns = t.columns ∧ r = r' := by
  have hend (u : List Char) : EndsList (")".toList ++ (" VALUES (".toList ++ u)) :=
    ⟨')', _, rfl, rfl, by decide⟩
  rw [columnText, columnText] at h
  -- a column list begins with a parenthesis, which VALUES does not
  by_cases hsc : s.columns = []
  · by_cases htc : t.columns = []
    · rw [hsc, htc] at h ⊢
      exact ⟨rfl, List.append_cancel_left (List.append_cancel_left h)⟩
    · rw [if_pos (List.isEmpty_iff.mpr hsc), if_neg (mt List.isEmpty_iff.mp htc)] at h
      simp at h
  · rw [if_neg (mt List.isEmpty_iff.mp hsc)] at h
    by_cases htc : t.columns = []
    · rw [if_pos (List.isEmpty_iff.mpr htc)] at h
      simp at h
    · rw [if_neg (mt List.isEmpty_iff.mp htc)] at h
      simp only [String.toList_append, List.append_assoc] at h
      obtain ⟨hcolumns, hrest⟩ := names_append_inj hsc htc hs ht (hend r) (hend r')
        (List.append_cancel_left h)
      exact ⟨hcolumns, List.append_cancel_left (List.append_cancel_left hrest)⟩

end

/-! ## Clauses as items with placeholders -/

/-- The WHERE clause is its comparisons with their placeholders.  This is the form that
    is read back: no values, and numbers for the placeholders. -/
theorem Condition.write_clause (d : Dialect) (cs : List Condition) (rest : List Fragment)
    (i : Nat) :
    Query.write d i (clause cs ++ rest)
      = boundText d Comparison.text i (comparisons cs) ++ Query.write d (i + cs.length) rest := by
  -- a single condition behind its lead
  have hone (k : Option Connector) (c : Condition) (tail : List Fragment) (i : Nat) :
      Query.write d i (c.fragments (Comparison.lead k) ++ tail)
        = (c.comparison k).text ++ d.placeholder i ++ Query.write d (i + 1) tail := by
    simp only [fragments, List.cons_append, List.nil_append, Query.write, comparison,
      Comparison.text, String.append_assoc]
  -- the conditions behind the first one, each with its connector
  have hrest : ∀ (cs : List Condition) (i : Nat),
      Query.write d i (restFragments cs ++ rest)
        = boundText d Comparison.text i (cs.map fun c => c.comparison (some c.connector))
          ++ Query.write d (i + cs.length) rest := by
    intro cs
    induction cs with
    | nil => intro i; simp [restFragments, boundText]
    | cons c cs ih =>
        intro i
        rw [restFragments, List.append_assoc, List.map_cons, boundText, List.length_cons,
          Nat.add_comm cs.length, ← Nat.add_assoc]
        exact (hone (some c.connector) c _ i).trans (by rw [ih]; simp only [String.append_assoc])
  cases cs with
  | nil => simp [clause, comparisons, boundText]
  | cons c cs =>
      rw [clause, List.append_assoc, comparisons, boundText, List.length_cons,
        Nat.add_comm cs.length, ← Nat.add_assoc]
      exact (hone none c _ i).trans (by rw [hrest]; simp only [String.append_assoc])

/-- An assignment as written before its placeholder. -/
def Update.assignedText (lead name : String) : String := lead ++ (name ++ " = ")

theorem Update.readBack_assignedText (d : Dialect) (lead : String) :
    ReadBack (fun name => d.isValidName name = true) (assignedText lead) :=
  ((readBack_name d).before ⟨' ', ['=', ' '], rfl, rfl⟩).behind lead

/-- The SET clause as written. -/
def Update.setText (d : Dialect) : List String → String
  | [] => ""
  | name :: rest =>
      assignedText " SET " name ++ d.placeholder 0 ++ boundText d (assignedText ", ") 1 rest

/-- The SET clause is its names with their placeholders. -/
theorem Update.write_setClause (d : Dialect) (entries : List Entry) (rest : List Fragment) :
    Query.write d 0 (setClause entries ++ rest)
      = setText d (entries.map Entry.name) ++ Query.write d entries.length rest := by
  have hone (lead : String) (e : Entry) (tail : List Fragment) (i : Nat) :
      Query.write d i (assignment lead e ++ tail)
        = assignedText lead e.name ++ d.placeholder i ++ Query.write d (i + 1) tail := by
    simp only [assignment, List.cons_append, List.nil_append, Query.write, assignedText,
      String.append_assoc]
  -- the entries behind the first one, each after a comma
  have hrest : ∀ (es : List Entry) (i : Nat),
      Query.write d i (es.flatMap (assignment ", ") ++ rest)
        = boundText d (assignedText ", ") i (es.map Entry.name)
          ++ Query.write d (i + es.length) rest := by
    intro es
    induction es with
    | nil => intro i; simp [boundText]
    | cons e es ih =>
        intro i
        rw [List.flatMap_cons, List.append_assoc, hone, ih, List.map_cons, boundText,
          List.length_cons, Nat.add_comm es.length, ← Nat.add_assoc]
        simp only [String.append_assoc]
  cases entries with
  | nil => simp [setClause, setText]
  | cons e es =>
      rw [setClause, List.append_assoc, hone, hrest, List.map_cons, setText, List.length_cons,
        Nat.add_comm es.length]
      simp only [String.append_assoc]

/-- The values of an INSERT as written, whatever they are. -/
def Insert.valuesText (d : Dialect) : List Unit → String
  | [] => ""
  | _ :: rest => d.placeholder 0 ++ boundText d (fun _ => ", ") 1 rest

/-- The values of an INSERT are placeholders with commas between them. -/
theorem Insert.write_valueFragments (d : Dialect) (values : List Value) (rest : List Fragment) :
    Query.write d 0 (valueFragments values ++ rest)
      = valuesText d (values.map fun _ => ()) ++ Query.write d values.length rest := by
  -- a value and those behind it, each after a comma
  have hfrom : ∀ (vs : List Value) (v : Value) (i : Nat),
      Query.write d i (valueFragments (v :: vs) ++ rest)
        = d.placeholder i ++ (boundText d (fun _ => ", ") (i + 1) (vs.map fun _ => ())
          ++ Query.write d (i + 1 + vs.length) rest) := by
    intro vs
    induction vs with
    | nil => intro v i; simp [valueFragments, Query.write, boundText]
    | cons w vs ih =>
        intro v i
        rw [valueFragments, List.cons_append, List.cons_append, Query.write, Query.write, ih,
          List.map_cons, boundText, List.length_cons, Nat.add_comm vs.length, ← Nat.add_assoc]
        simp only [String.append_assoc]
  cases values with
  | nil => simp [valueFragments, valuesText]
  | cons v vs =>
      rw [hfrom, List.map_cons, valuesText, List.length_cons, Nat.add_comm vs.length]
      simp only [String.append_assoc, Nat.zero_add]

/-! ## What follows a clause -/

/-- No comparison begins where a statement ends. -/
theorem Comparison.not_prefix_semicolon (c : Comparison) : ¬ c.text.toList <+: [';'] := by
  rintro ⟨rest, h⟩
  rcases hk : c.connector with _ | _ | _ <;> simp [text, hk, lead, Connector.word] at h

/-- No comparison begins where the order of a SELECT does. -/
theorem Comparison.not_prefix_orderText (c : Comparison) (s : Select) :
    ¬ c.text.toList <+: s.orderText.toList ++ [';'] := by
  rw [Select.orderText]
  split
  · exact c.not_prefix_semicolon
  · rintro ⟨rest, h⟩
    rcases hk : c.connector with _ | _ | _ <;> simp [text, hk, lead, Connector.word] at h

/-- The order of a SELECT ends a word. -/
theorem Select.endsToken_orderText (s : Select) : EndsToken (s.orderText.toList ++ [';']) := by
  rw [orderText]
  split
  · exact ⟨';', [], rfl, rfl⟩
  · exact ⟨' ', _, by rw [String.toList_append]; rfl, rfl⟩

/-- Comparisons end a word, or what follows them does. -/
theorem Comparison.endsToken_boundText (d : Dialect) (i : Nat) (cs : List Comparison)
    {rest : List Char} (h : EndsToken rest) :
    EndsToken ((boundText d text i cs).toList ++ rest) := by
  cases cs with
  | nil => exact h
  | cons c cs =>
      rw [boundText, text, String.toList_append, String.toList_append, String.toList_append]
      rcases c.connector with _ | _ | _ <;> exact ⟨' ', _, rfl, rfl⟩

/-- No assignment begins where the conditions do, nor where the statement ends. -/
theorem Update.not_prefix_boundText {lead : String} (h : lead = " SET " ∨ lead = ", ")
    (name : String) (d : Dialect) (i : Nat) (cs : List Comparison) :
    ¬ (assignedText lead name).toList <+: (boundText d Comparison.text i cs).toList ++ [';'] := by
  intro hprefix
  have hlead : lead.toList <+: (boundText d Comparison.text i cs).toList ++ [';'] :=
    List.IsPrefix.trans ⟨_, by rw [assignedText, String.toList_append]⟩ hprefix
  cases cs with
  | nil =>
      change lead.toList <+: [';'] at hlead
      rcases h with rfl | rfl <;> exact absurd hlead (by decide)
  | cons c cs =>
      obtain ⟨tail, heq⟩ := hlead
      rw [boundText, Comparison.text] at heq
      rcases h with rfl | rfl
        <;> rcases hk : c.connector with _ | _ | _
        <;> simp [hk, Comparison.lead, Connector.word] at heq

/-- A SET clause ends a word, or what follows it does. -/
theorem Update.endsToken_setText (d : Dialect) (names : List String) {rest : List Char}
    (h : EndsToken rest) : EndsToken ((setText d names).toList ++ rest) := by
  cases names with
  | nil => exact h
  | cons name names =>
      rw [setText, assignedText, String.toList_append, String.toList_append, String.toList_append]
      exact ⟨' ', _, rfl, rfl⟩

/-- The SET clause is read back before the conditions.  The WHERE clause begins with a
    blank, so it is not taken for another assignment. -/
theorem Update.setText_append_inj {d : Dialect} {xs ys : List String}
    (hx : ∀ x ∈ xs, d.isValidName x = true) (hy : ∀ y ∈ ys, d.isValidName y = true)
    {i j : Nat} {cs ds : List Comparison}
    (h : (setText d xs).toList ++ ((boundText d Comparison.text i cs).toList ++ [';'])
      = (setText d ys).toList ++ ((boundText d Comparison.text j ds).toList ++ [';'])) :
    xs = ys ∧ (boundText d Comparison.text i cs).toList ++ [';']
      = (boundText d Comparison.text j ds).toList ++ [';'] := by
  have hcons (name : String) (names : List String) (rest : List Char) :
      (setText d (name :: names)).toList ++ rest
        = (assignedText " SET " name).toList ++ ((d.placeholder 0).toList
          ++ ((boundText d (assignedText ", ") 1 names).toList ++ rest)) := by
    simp only [setText, String.toList_append, List.append_assoc]
  -- one list empty and the other not: the word SET would begin a condition
  cases xs with
  | nil =>
      cases ys with
      | nil => exact ⟨rfl, h⟩
      | cons y ys =>
          rw [hcons] at h
          exact absurd ⟨_, h.symm⟩ (not_prefix_boundText (.inl rfl) y d i cs)
  | cons x xs =>
      cases ys with
      | nil =>
          rw [hcons] at h
          exact absurd ⟨_, h⟩ (not_prefix_boundText (.inl rfl) x d j ds)
      | cons y ys =>
          rw [hcons, hcons] at h
          obtain ⟨rfl, hrest⟩ := readBack_assignedText d " SET " (hx x (List.mem_cons_self ..))
            (hy y (List.mem_cons_self ..)) (endsToken_placeholder d 0 _)
            (endsToken_placeholder d 0 _) h
          obtain ⟨rfl, htail⟩ := (readBack_assignedText d ", ").bound d
            (fun name => not_prefix_boundText (.inr rfl) name d i cs)
            (fun name => not_prefix_boundText (.inr rfl) name d j ds)
            (fun z hz => hx z (List.mem_cons_of_mem _ hz))
            (fun z hz => hy z (List.mem_cons_of_mem _ hz)) 1 (List.append_cancel_left hrest)
          exact ⟨rfl, htail⟩

/-- The number of inserted values is read back.  Each has a placeholder, and the list is
    closed after the last. -/
theorem Insert.valuesText_append_inj {d : Dialect} {xs ys : List Unit}
    (h : (valuesText d xs).toList ++ [')', ';'] = (valuesText d ys).toList ++ [')', ';']) :
    xs = ys := by
  have hunit : ReadBack (fun _ : Unit => True) fun _ => ", " :=
    fun _ _ _ _ _ _ _ _ heq => ⟨rfl, List.append_cancel_left heq⟩
  have hend (_ : Unit) : ¬ ", ".toList <+: [')', ';'] := by decide
  have hcons (x : Unit) (rest : List Unit) :
      (valuesText d (x :: rest)).toList ++ [')', ';']
        = (d.placeholder 0).toList
          ++ ((boundText d (fun _ => ", ") 1 rest).toList ++ [')', ';']) := by
    simp only [valuesText, String.toList_append, List.append_assoc]
  -- a placeholder does not begin with the end of the statement
  have hfirst (rest : List Char) : [')', ';'] ≠ (d.placeholder 0).toList ++ rest := by
    cases d <;> exact fun heq => absurd (List.cons.inj heq).1 (by decide)
  cases xs with
  | nil =>
      cases ys with
      | nil => rfl
      | cons y ys => exact absurd h (by rw [hcons]; exact hfirst _)
  | cons x xs =>
      cases ys with
      | nil => exact absurd h.symm (by rw [hcons]; exact hfirst _)
      | cons y ys =>
          rw [hcons, hcons] at h
          obtain ⟨rfl, -⟩ := hunit.bound d hend hend (fun _ _ => trivial) (fun _ _ => trivial) 1
            (List.append_cancel_left h)
          rfl

/-! ## Statements -/

theorem Condition.isValidName_comparisons {d : Dialect} {cs : List Condition}
    (h : ∀ c ∈ cs, d.isValidName c.column = true) :
    ∀ c ∈ comparisons cs, d.isValidName c.column = true := by
  cases cs with
  | nil => exact fun c hc => nomatch hc
  | cons c cs =>
      rw [comparisons, List.forall_mem_cons, List.forall_mem_map]
      exact ⟨h c (List.mem_cons_self ..), fun x hx => h x (List.mem_cons_of_mem _ hx)⟩

section

variable {d : Dialect} {x y : String}

/-- **A SELECT IS READ BACK** from its text.  Its columns are read first, then the
    table, the conditions, and the order. -/
theorem Select.outline_eq {s t : Select} (hs : (Manipulation.select s).Named d)
    (ht : (Manipulation.select t).Named d) (hx : s.table = some x) (hy : t.table = some y)
    (h : (Query.ofFragments d (s.fragments x)).sql = (Query.ofFragments d (t.fragments y)).sql) :
    (Manipulation.select s).outline = (Manipulation.select t).outline := by
  have hchars (u : Select) (name : String) :
      (Query.ofFragments d (u.fragments name)).sql.toList
        = "SELECT ".toList ++ (u.columnText.toList ++ (" FROM ".toList ++ (name.toList
          ++ ((boundText d Comparison.text 0 (Condition.comparisons u.conditions)).toList
            ++ (u.orderText.toList ++ [';']))))) := by
    rw [Query.ofFragments, fragments, List.cons_append, Query.write, Condition.write_clause]
    simp only [Query.write, String.toList_append, List.append_assoc]
    rfl
  obtain ⟨hsTable, hsColumns, hsConditions, hsOrder⟩ := Manipulation.named_select.mp hs
  obtain ⟨htTable, htColumns, htConditions, htOrder⟩ := Manipulation.named_select.mp ht
  rw [← String.toList_inj, hchars, hchars] at h
  have hfrom (r : List Char) : EndsList (" FROM ".toList ++ r) :=
    ⟨' ', _, rfl, rfl, by decide⟩
  -- part by part from the left: each says where it ends
  obtain ⟨hcolumns, h⟩ := columnText_append_inj hsColumns htColumns (hfrom _) (hfrom _)
    (List.append_cancel_left h)
  obtain ⟨htable, h⟩ := readBack_name d (hsTable x hx) (htTable y hy)
    (Comparison.endsToken_boundText d 0 _ s.endsToken_orderText)
    (Comparison.endsToken_boundText d 0 _ t.endsToken_orderText) (List.append_cancel_left h)
  obtain ⟨hconditions, h⟩ := (Comparison.readBack_text d).bound d
    (fun c => c.not_prefix_orderText s) (fun c => c.not_prefix_orderText t)
    (Condition.isValidName_comparisons hsConditions)
    (Condition.isValidName_comparisons htConditions) 0 h
  have horder := orderText_inj hsOrder htOrder h
  rw [Manipulation.outline, Manipulation.outline, hx, hy, htable, hcolumns, hconditions, horder]

/-- **AN INSERT IS READ BACK** from its text.  The table is read first, then its
    columns, and the values are counted. -/
theorem Insert.outline_eq {s t : Insert} (hs : (Manipulation.insert s).Named d)
    (ht : (Manipulation.insert t).Named d) (hx : s.table = some x) (hy : t.table = some y)
    (h : (Query.ofFragments d (s.fragments x)).sql = (Query.ofFragments d (t.fragments y)).sql) :
    (Manipulation.insert s).outline = (Manipulation.insert t).outline := by
  have hchars (u : Insert) (name : String) :
      (Query.ofFragments d (u.fragments name)).sql.toList
        = "INSERT INTO ".toList ++ (name.toList ++ (u.columnText.toList ++ (" VALUES (".toList
          ++ ((valuesText d (u.values.map fun _ => ())).toList ++ [')', ';'])))) := by
    rw [Query.ofFragments, fragments, List.cons_append, Query.write, write_valueFragments]
    simp only [Query.write, String.toList_append, List.append_assoc]
    rfl
  obtain ⟨hsTable, hsColumns⟩ := Manipulation.named_insert.mp hs
  obtain ⟨htTable, htColumns⟩ := Manipulation.named_insert.mp ht
  rw [← String.toList_inj, hchars, hchars] at h
  have hends (u : Insert) (r : List Char) :
      EndsToken (u.columnText.toList ++ (" VALUES (".toList ++ r)) := by
    rw [columnText]
    split
    · exact ⟨' ', _, rfl, rfl⟩
    · exact ⟨' ', _, by rw [String.toList_append, String.toList_append]; rfl, rfl⟩
  obtain ⟨htable, h⟩ := readBack_name d (hsTable x hx) (htTable y hy) (hends s _) (hends t _)
    (List.append_cancel_left h)
  obtain ⟨hcolumns, h⟩ := columnText_append_inj hsColumns htColumns h
  -- the placeholders tell how many values there are
  have hlength : s.values.length = t.values.length := by
    simpa using congrArg List.length (valuesText_append_inj h)
  rw [Manipulation.outline, Manipulation.outline, hx, hy, htable, hcolumns, hlength]

/-- **AN UPDATE IS READ BACK** from its text.  The table is read first, then the
    assignments, and then the conditions. -/
theorem Update.outline_eq {s t : Update} (hs : (Manipulation.update s).Named d)
    (ht : (Manipulation.update t).Named d) (hx : s.table = some x) (hy : t.table = some y)
    (h : (Query.ofFragments d (s.fragments x)).sql = (Query.ofFragments d (t.fragments y)).sql) :
    (Manipulation.update s).outline = (Manipulation.update t).outline := by
  have hchars (u : Update) (name : String) :
      (Query.ofFragments d (u.fragments name)).sql.toList
        = "UPDATE ".toList ++ (name.toList ++ ((setText d (u.assignments.map Entry.name)).toList
          ++ ((boundText d Comparison.text (u.assignments.map Entry.name).length
            (Condition.comparisons u.conditions)).toList ++ [';']))) := by
    rw [Query.ofFragments, fragments, List.cons_append, List.cons_append, Query.write,
      List.append_assoc, write_setClause, Condition.write_clause, List.length_map]
    simp only [Query.write, String.toList_append, List.append_assoc]
    rfl
  obtain ⟨hsTable, hsAssignments, hsConditions⟩ := Manipulation.named_update.mp hs
  obtain ⟨htTable, htAssignments, htConditions⟩ := Manipulation.named_update.mp ht
  have hends (i : Nat) (cs : List Comparison) :
      EndsToken ((boundText d Comparison.text i cs).toList ++ [';']) :=
    Comparison.endsToken_boundText d i cs ⟨';', [], rfl, rfl⟩
  rw [← String.toList_inj, hchars, hchars] at h
  obtain ⟨htable, h⟩ := readBack_name d (hsTable x hx) (htTable y hy)
    (endsToken_setText d _ (hends _ _)) (endsToken_setText d _ (hends _ _))
    (List.append_cancel_left h)
  obtain ⟨hassigned, h⟩ := setText_append_inj (List.forall_mem_map.mpr hsAssignments)
    (List.forall_mem_map.mpr htAssignments) h
  -- as many assignments, hence the same first number for the conditions
  rw [hassigned] at h
  obtain ⟨hconditions, -⟩ := (Comparison.readBack_text d).bound d
    Comparison.not_prefix_semicolon Comparison.not_prefix_semicolon
    (Condition.isValidName_comparisons hsConditions)
    (Condition.isValidName_comparisons htConditions) _ h
  rw [Manipulation.outline, Manipulation.outline, hx, hy, htable, hassigned, hconditions]

/-- **A DELETE IS READ BACK** from its text.  The table is read first, and then the
    conditions. -/
theorem Delete.outline_eq {s t : Delete} (hs : (Manipulation.delete s).Named d)
    (ht : (Manipulation.delete t).Named d) (hx : s.table = some x) (hy : t.table = some y)
    (h : (Query.ofFragments d (s.fragments x)).sql = (Query.ofFragments d (t.fragments y)).sql) :
    (Manipulation.delete s).outline = (Manipulation.delete t).outline := by
  have hchars (u : Delete) (name : String) :
      (Query.ofFragments d (u.fragments name)).sql.toList
        = "DELETE FROM ".toList ++ (name.toList
          ++ ((boundText d Comparison.text 0 (Condition.comparisons u.conditions)).toList
            ++ [';'])) := by
    rw [Query.ofFragments, fragments, List.cons_append, Query.write, Condition.write_clause]
    simp only [Query.write, String.toList_append, List.append_assoc]
    rfl
  obtain ⟨hsTable, hsConditions⟩ := Manipulation.named_delete.mp hs
  obtain ⟨htTable, htConditions⟩ := Manipulation.named_delete.mp ht
  -- behind the table stands a blank or the semicolon
  have hends (cs : List Comparison) :
      EndsToken ((boundText d Comparison.text 0 cs).toList ++ [';']) :=
    Comparison.endsToken_boundText d 0 cs ⟨';', [], rfl, rfl⟩
  rw [← String.toList_inj, hchars, hchars] at h
  obtain ⟨htable, h⟩ := readBack_name d (hsTable x hx) (htTable y hy) (hends _) (hends _)
    (List.append_cancel_left h)
  obtain ⟨hconditions, -⟩ := (Comparison.readBack_text d).bound d
    Comparison.not_prefix_semicolon Comparison.not_prefix_semicolon
    (Condition.isValidName_comparisons hsConditions)
    (Condition.isValidName_comparisons htConditions) 0 h
  rw [Manipulation.outline, Manipulation.outline, hx, hy, htable, hconditions]

end

/-! ## The outline of a text -/

/-- The number of values of a statement with an outline, which is the number of its
    placeholders. -/
def Outline.values : Outline → Nat
  | .select _ _ conditions _ => conditions.length
  | .insert _ _ values => values
  | .update _ assigned conditions => assigned.length + conditions.length
  | .delete _ conditions => conditions.length

theorem Manipulation.length_sites (m : Manipulation) : m.sites.length = m.outline.values := by
  cases m with
  | select s =>
      rw [sites, outline, Outline.values, List.length_map, Condition.length_comparisons]
  | insert s =>
      rw [sites, outline, Outline.values]
      cases s.values with
      | nil => rfl
      | cons v rest => rw [Insert.sites, List.length_cons, List.length_map, List.length_cons]
  | update s =>
      rw [sites, outline, Outline.values, List.length_append, List.length_map, List.length_map,
        List.length_map, Condition.length_comparisons]
  | delete s =>
      rw [sites, outline, Outline.values, List.length_map, Condition.length_comparisons]

/-- The letter that a statement begins with.  The four kinds have four letters, so a
    text shows its kind. -/
def Manipulation.initial : Manipulation → Char
  | .select _ => 'S'
  | .insert _ => 'I'
  | .update _ => 'U'
  | .delete _ => 'D'

theorem Manipulation.head?_sql (d : Dialect) (m : Manipulation) (table : String) :
    (Query.ofFragments d (m.fragments table)).sql.toList.head? = some m.initial := by
  cases m <;> simp [fragments, Select.fragments, Insert.fragments, Update.fragments,
    Delete.fragments, Query.ofFragments, Query.write, initial]

/-- Statements of one text are of one kind, and each kind is read back.  The first
    letter tells the kind. -/
theorem Manipulation.outline_eq {d : Dialect} {a b : Manipulation} (ha : a.Named d)
    (hb : b.Named d) {x y : String} (hx : a.table? = some x) (hy : b.table? = some y)
    (h : (Query.ofFragments d (a.fragments x)).sql = (Query.ofFragments d (b.fragments y)).sql) :
    a.outline = b.outline := by
  have hinitial : a.initial = b.initial := by
    apply Option.some.inj
    rw [← head?_sql d a x, ← head?_sql d b y, h]
  cases a with
  | select s =>
      cases b with
      | select t => exact Select.outline_eq ha hb hx hy h
      | insert | update | delete => exact absurd hinitial (by simp [initial])
  | insert s =>
      cases b with
      | insert t => exact Insert.outline_eq ha hb hx hy h
      | select | update | delete => exact absurd hinitial (by simp [initial])
  | update s =>
      cases b with
      | update t => exact Update.outline_eq ha hb hx hy h
      | select | insert | delete => exact absurd hinitial (by simp [initial])
  | delete s =>
      cases b with
      | delete t => exact Delete.outline_eq ha hb hx hy h
      | select | insert | update => exact absurd hinitial (by simp [initial])

/-- **ONE TEXT, ONE OUTLINE.**  Statements with valid names whose queries have one text differ
    in values only, and have as many of them. -/
theorem Manipulation.outline_of_sql_eq {d : Dialect} {a b : Manipulation} {p q : Query}
    (ha : a.Named d) (hb : b.Named d) (hp : a.build d = .ok p) (hq : b.build d = .ok q)
    (h : p.sql = q.sql) : a.outline = b.outline ∧ p.parameters.length = q.parameters.length := by
  obtain ⟨x, hx, rfl⟩ := build_eq_ok hp
  obtain ⟨y, hy, rfl⟩ := build_eq_ok hq
  have houtline := outline_eq ha hb hx hy h
  refine ⟨houtline, ?_⟩
  show (Query.collect 0 _).length = (Query.collect 0 _).length
  rw [(Manipulation.binds ha hx).length_collect, (Manipulation.binds hb hy).length_collect,
    length_sites, length_sites, houtline]

/-- The removal of people by number or by name, with any connector before the first
    condition. -/
def peopleRemoval (first : Connector) (number name : Value) : Manipulation :=
  .delete { table := some "people",
            conditions := [⟨first, "id", .eq, number⟩, ⟨.or, "name", .like, name⟩] }

/-- The connector of the first condition and the values leave no trace in the text.  One
    of the values is written like a condition with a placeholder. -/
theorem peopleRemoval_outline_eq :
    (peopleRemoval .and (.int 7) (.text "A%")).outline
        = (peopleRemoval .or .null (.text "x OR y = $1")).outline
      ∧ (Query.ofFragments .postgres
          ((peopleRemoval .and (.int 7) (.text "A%")).fragments "people")).parameters.length
        = (Query.ofFragments .postgres
          ((peopleRemoval .or .null (.text "x OR y = $1")).fragments "people")).parameters.length :=
  Manipulation.outline_of_sql_eq (show Manipulation.Named .postgres _ by decide) (by decide)
    rfl rfl (by decide)

end Gridbase
