import Gridbase.Proofs.Text

/-! # Lexemes — texts with string literals

    How a backend reads the text of a statement: a quote opens a literal, a quote
    inside it closes it, and two quotes inside it stand for one.  Outside of
    literals every character is a lexeme of its own.

    A BODY is what stands between a pair of parentheses.  It is cut into clauses at
    the commas outside literals and outside further parentheses.

    * `scanFrom_enclosed`: an enclosed text is scanned as the literal of that text.
    * `bodyFrom_append`: lexemes that neither cut nor close the body go into one clause.
    * `bodyFrom_clauses`: clauses with commas between them are found again. -/

namespace Gridbase.Text

/-! ## Scanning -/

/-- A character outside of literals, or a literal with the text it stands for, in which
    doubled quotes are single again. -/
inductive Lexeme
  | char (c : Char)
  | literal (text : List Char)
deriving DecidableEq

/-- What a scanner has read last: no literal, part of one, or a quote that closes one unless
    another quote follows. -/
inductive Reading
  | outside
  | inside (text : List Char)
  | closing (text : List Char)

/-- The lexemes of the rest of a text; none if a literal stays open.  Behind a quote it
    is not yet known whether the literal is closed, so that is a state of its own. -/
def scanFrom : Reading → List Char → Option (List Lexeme)
  | .outside, [] => some []
  | .inside _, [] => none
  | .closing text, [] => some [.literal text]
  | .outside, c :: cs =>
      if c = '\'' then scanFrom (.inside []) cs
      else (scanFrom .outside cs).map fun ls => .char c :: ls
  | .inside text, c :: cs =>
      if c = '\'' then scanFrom (.closing text) cs else scanFrom (.inside (text ++ [c])) cs
  | .closing text, c :: cs =>
      if c = '\'' then scanFrom (.inside (text ++ ['\''])) cs
      else (scanFrom .outside cs).map fun ls => .literal text :: .char c :: ls

/-- The lexemes of a text. -/
def scan (cs : List Char) : Option (List Lexeme) := scanFrom .outside cs

/-- A text without quotes is scanned character by character. -/
theorem scanFrom_append {a : List Char} (h : '\'' ∉ a) (b : List Char) :
    scanFrom .outside (a ++ b) = (scanFrom .outside b).map fun ls => a.map Lexeme.char ++ ls := by
  induction a with
  | nil => simp
  | cons c a ih =>
      have hc : ¬ c = '\'' := fun hcq => h (hcq ▸ List.mem_cons_self ..)
      rw [List.cons_append, scanFrom, if_neg hc, ih fun hm => h (List.mem_cons_of_mem _ hm),
        Option.map_map]
      rfl

/-- A literal is closed before anything but a quote. -/
theorem scanFrom_closing (text : List Char) {b : List Char} (h : b.head? ≠ some '\'') :
    scanFrom (.closing text) b = (scanFrom .outside b).map fun ls => .literal text :: ls := by
  cases b with
  | nil => rfl
  | cons c b =>
      have hc : ¬ c = '\'' := fun hcq => h (by rw [hcq]; rfl)
      rw [scanFrom, scanFrom, if_neg hc, if_neg hc, Option.map_map]
      rfl

/-- **DOUBLED QUOTES STAY INSIDE**: the scanner reads them as the text that they stand for. -/
theorem scanFrom_doubleMark (s b : List Char) :
    ∀ text, scanFrom (.inside text) (doubleMark '\'' s ++ b)
      = scanFrom (.inside (text ++ s)) b := by
  induction s with
  | nil => intro text; rw [doubleMark, List.nil_append, List.append_nil]
  | cons c s ih =>
      intro text
      rw [doubleMark]
      by_cases hc : c = '\''
      · rw [if_pos hc, List.cons_append, List.cons_append, scanFrom, if_pos rfl, scanFrom,
          if_pos rfl, ih, List.append_assoc, hc]
        rfl
      · rw [if_neg hc, List.cons_append, scanFrom, if_neg hc, ih, List.append_assoc]
        rfl

/-- **AN ENCLOSED TEXT IS ONE LITERAL** that stands for it, whatever it holds. -/
theorem scanFrom_enclosed (s : List Char) {b : List Char} (h : b.head? ≠ some '\'') :
    scanFrom .outside (enclosed '\'' '\'' s ++ b)
      = (scanFrom .outside b).map fun ls => .literal s :: ls := by
  have htext : enclosed '\'' '\'' s ++ b = '\'' :: (doubleMark '\'' s ++ '\'' :: b) := by
    simp [enclosed]
  rw [htext, scanFrom, if_pos rfl, scanFrom_doubleMark, List.nil_append, scanFrom, if_pos rfl,
    scanFrom_closing s h]

/-! ## Parts of a text -/

/-- A part of a text is scanned to some lexemes, unless a quote comes right after it,
    which might go on with a literal at its end. -/
def ScansTo (a : List Char) (ls : List Lexeme) : Prop :=
  ∀ b : List Char, b.head? ≠ some '\'' →
    scanFrom .outside (a ++ b) = (scanFrom .outside b).map fun rest => ls ++ rest

theorem scansTo_chars {a : List Char} (h : '\'' ∉ a) : ScansTo a (a.map Lexeme.char) :=
  fun b _ => scanFrom_append h b

theorem scansTo_enclosed (s : List Char) : ScansTo (enclosed '\'' '\'' s) [.literal s] :=
  fun _ hb => scanFrom_enclosed s hb

/-- Parts after one another, if the second does not begin with a quote. -/
theorem ScansTo.append {a b : List Char} {la lb : List Lexeme} (ha : ScansTo a la)
    (hb : ScansTo b lb) (hquote : b.head? ≠ some '\'') : ScansTo (a ++ b) (la ++ lb) := by
  intro c hc
  have hbc : (b ++ c).head? ≠ some '\'' := by
    cases b with
    | nil => exact hc
    | cons x b => exact hquote
  rw [List.append_assoc, ha _ hbc, hb c hc, Option.map_map]
  simp only [Function.comp_def, List.append_assoc]

/-- A part after characters without quotes. -/
theorem ScansTo.append_chars {a b : List Char} {lb : List Lexeme} (h : '\'' ∉ a)
    (hb : ScansTo b lb) : ScansTo (a ++ b) (a.map Lexeme.char ++ lb) := by
  intro c hc
  rw [List.append_assoc, scanFrom_append h, hb c hc, Option.map_map]
  simp only [Function.comp_def, List.append_assoc]

/-- A whole text. -/
theorem ScansTo.scan_eq {a : List Char} {ls : List Lexeme} (h : ScansTo a ls) :
    scan a = some ls := by
  have hnil := h [] nofun
  rw [List.append_nil] at hnil
  rw [scan, hnil, scanFrom, Option.map_some, List.append_nil]

/-! ## Bodies -/

/-- The clauses of a body, at least one, and what follows the body.  A clause is a list
    of lexemes. -/
structure Body where
  first : List Lexeme
  others : List (List Lexeme)
  rest : List Lexeme
deriving DecidableEq

namespace Body

/-- The clauses of the body. -/
def clauses (b : Body) : List (List Lexeme) := b.first :: b.others

/-- The body with a lexeme before its first clause. -/
def put (l : Lexeme) (b : Body) : Body := { b with first := l :: b.first }

/-- The body with a comma before its first clause. -/
def cut (b : Body) : Body := ⟨[], b.clauses, b.rest⟩

/-- The body with some lexemes before its first clause. -/
def putAll (ls : List Lexeme) (b : Body) : Body := { b with first := ls ++ b.first }

end Body

/-- The body that goes on inside a number of further parentheses; none if it is not
    closed.  Commas cut it outside of these only. -/
def bodyFrom : Nat → List Lexeme → Option Body
  | _, [] => none
  | depth, l :: ls =>
      if l = .char ')' then
        if depth = 0 then some ⟨[], [], ls⟩ else (bodyFrom (depth - 1) ls).map (Body.put l)
      else if l = .char '(' then (bodyFrom (depth + 1) ls).map (Body.put l)
      else if l = .char ',' ∧ depth = 0 then (bodyFrom 0 ls).map Body.cut
      else (bodyFrom depth ls).map (Body.put l)

/-- The body that the first parenthesis opens. -/
def body? (ls : List Lexeme) : Option Body :=
  bodyFrom 0 (ls.dropWhile fun l => l != .char '(').tail

/-- How many further parentheses are open after some lexemes; none if they cut the body or
    close it. -/
def depthAfter : Nat → List Lexeme → Option Nat
  | depth, [] => some depth
  | depth, l :: ls =>
      if l = .char ')' then if depth = 0 then none else depthAfter (depth - 1) ls
      else if l = .char '(' then depthAfter (depth + 1) ls
      else if l = .char ',' ∧ depth = 0 then none
      else depthAfter depth ls

/-- The depth after two parts is that after the second, from the depth after the first.
    -/
theorem depthAfter_append (a b : List Lexeme) :
    ∀ depth, depthAfter depth (a ++ b) = (depthAfter depth a).bind fun n => depthAfter n b := by
  induction a with
  | nil => intro depth; rfl
  | cons l a ih =>
      intro depth
      rw [List.cons_append, depthAfter, depthAfter]
      -- the cases of the count: a closing mark, an opening one, a comma, any other lexeme
      by_cases hclose : l = .char ')'
      · rw [if_pos hclose, if_pos hclose]
        by_cases hdepth : depth = 0
        · rw [if_pos hdepth, if_pos hdepth]
          rfl
        · rw [if_neg hdepth, if_neg hdepth, ih]
      · rw [if_neg hclose, if_neg hclose]
        by_cases hopen : l = .char '('
        · rw [if_pos hopen, if_pos hopen, ih]
        · rw [if_neg hopen, if_neg hopen]
          by_cases hcomma : l = .char ',' ∧ depth = 0
          · rw [if_pos hcomma, if_pos hcomma]
            rfl
          · rw [if_neg hcomma, if_neg hcomma, ih]

/-- **LEXEMES OF ONE CLAUSE** are put before the clause that goes on after them.  The
    depth moves along, and no comma in them stands outside of parentheses. -/
theorem bodyFrom_append {a : List Lexeme} (b : List Lexeme) :
    ∀ {depth n : Nat}, depthAfter depth a = some n →
      bodyFrom depth (a ++ b) = (bodyFrom n b).map (Body.putAll a) := by
  induction a with
  | nil =>
      intro depth n h
      cases h
      exact (Option.map_id' ..).symm
  | cons l a ih =>
      intro depth n h
      have hput : Body.putAll (l :: a) = Body.put l ∘ Body.putAll a := rfl
      rw [depthAfter] at h
      rw [List.cons_append, bodyFrom, hput, ← Option.map_map]
      -- the same cases as for the depth, which goes along
      by_cases hclose : l = .char ')'
      · rw [if_pos hclose] at h ⊢
        by_cases hdepth : depth = 0
        · rw [if_pos hdepth] at h
          exact nomatch h
        · rw [if_neg hdepth] at h ⊢
          rw [ih h]
      · rw [if_neg hclose] at h ⊢
        by_cases hopen : l = .char '('
        · rw [if_pos hopen] at h ⊢
          rw [ih h]
        · rw [if_neg hopen] at h ⊢
          by_cases hcomma : l = .char ',' ∧ depth = 0
          · rw [if_pos hcomma] at h
            exact nomatch h
          · rw [if_neg hcomma] at h ⊢
            rw [ih h]

/-- A clause neither cuts the body nor closes it, and leaves no parenthesis open.
    Characters in literals do not count. -/
def IsClause (ls : List Lexeme) : Prop := depthAfter 0 ls = some 0

instance (ls : List Lexeme) : Decidable (IsClause ls) := inferInstanceAs (Decidable (_ = _))

theorem IsClause.append {a b : List Lexeme} (ha : IsClause a) (hb : IsClause b) :
    IsClause (a ++ b) := by
  rw [IsClause, depthAfter_append, ha]
  exact hb

/-- **CLAUSES ARE FOUND AGAIN**, each after the first with the blank that follows its comma. -/
theorem bodyFrom_clauses {first : List Lexeme} (hfirst : IsClause first)
    {others : List (List Lexeme)} (hothers : ∀ c ∈ others, IsClause c) (rest : List Lexeme) :
    bodyFrom 0 (first ++ ((others.flatMap fun c => .char ',' :: .char ' ' :: c)
        ++ .char ')' :: rest))
      = some ⟨first, others.map fun c => .char ' ' :: c, rest⟩ := by
  induction others generalizing first with
  | nil =>
      rw [bodyFrom_append _ hfirst, List.flatMap_nil, List.nil_append, bodyFrom, if_pos rfl]
      simp [Body.putAll]
  | cons c others ih =>
      have hblank : IsClause (.char ' ' :: c) :=
        IsClause.append (a := [.char ' ']) (by decide) (hothers c (List.mem_cons_self ..))
      have hrest := ih hblank fun x hx => hothers x (List.mem_cons_of_mem _ hx)
      rw [← List.append_assoc] at hrest
      rw [bodyFrom_append _ hfirst, List.flatMap_cons, List.cons_append, List.cons_append,
        bodyFrom, if_neg (by decide), if_neg (by decide), if_pos ⟨rfl, rfl⟩, hrest]
      simp [Body.putAll, Body.cut, Body.clauses]

/-! ## Texts inside a clause -/

/-- A text that may stand in a clause: without quotes and semicolons, and all its parentheses
    closed around its commas. -/
structure Whole (cs : List Char) : Prop where
  quote : '\'' ∉ cs
  semicolon : ';' ∉ cs
  clause : IsClause (cs.map Lexeme.char)

instance (cs : List Char) : Decidable (Whole cs) :=
  decidable_of_iff ('\'' ∉ cs ∧ ';' ∉ cs ∧ IsClause (cs.map Lexeme.char))
    ⟨fun h => ⟨h.1, h.2.1, h.2.2⟩, fun h => ⟨h.quote, h.semicolon, h.clause⟩⟩

theorem Whole.append {a b : List Char} (ha : Whole a) (hb : Whole b) : Whole (a ++ b) where
  quote h := (List.mem_append.mp h).elim ha.quote hb.quote
  semicolon h := (List.mem_append.mp h).elim ha.semicolon hb.semicolon
  clause := by
    rw [List.map_append]
    exact ha.clause.append hb.clause

/-- A text without quotes, semicolons, parentheses and commas. -/
def Inert (cs : List Char) : Prop := ∀ c ∈ cs, c ∉ ['\'', ';', '(', ')', ',']

instance (cs : List Char) : Decidable (Inert cs) := List.decidableBAll _ cs

theorem Inert.append {a b : List Char} (ha : Inert a) (hb : Inert b) : Inert (a ++ b) := by
  intro c hc
  exact (List.mem_append.mp hc).elim (ha c) (hb c)

theorem Inert.of_subset {a b : List Char} (h : Inert b) (hab : a ⊆ b) : Inert a :=
  fun c hc => h c (hab hc)

/-- An inert text may stand in a clause. -/
theorem Inert.whole {cs : List Char} (h : Inert cs) : Whole cs where
  quote hc := h _ hc (by decide)
  semicolon hc := h _ hc (by decide)
  clause := by
    induction cs with
    | nil => rfl
    | cons c cs ih =>
        have hc := h c (List.mem_cons_self ..)
        have hne (m : Char) (hm : m ∈ ['\'', ';', '(', ')', ',']) : Lexeme.char c ≠ .char m := by
          rintro ⟨⟩
          exact hc hm
        rw [IsClause, List.map_cons, depthAfter, if_neg (hne _ (by decide)),
          if_neg (hne _ (by decide)), if_neg fun hcomma => hne _ (by decide) hcomma.1]
        exact ih fun x hx => h x (List.mem_cons_of_mem _ hx)

/-- A text stands in a clause as some lexemes: it is scanned to them, and they neither cut the
    body nor end a statement. -/
structure InClause (a : List Char) (ls : List Lexeme) : Prop where
  scans : ScansTo a ls
  clause : IsClause ls
  semicolon : .char ';' ∉ ls

theorem Whole.semicolon_notMem {a : List Char} (h : Whole a) : .char ';' ∉ a.map Lexeme.char := by
  intro hm
  obtain ⟨c, hc, hcs⟩ := List.mem_map.mp hm
  cases hcs
  exact h.semicolon hc

theorem Whole.inClause {a : List Char} (h : Whole a) : InClause a (a.map Lexeme.char) :=
  ⟨scansTo_chars h.quote, h.clause, h.semicolon_notMem⟩

/-- **A LITERAL STANDS IN A CLAUSE**, whatever its text holds.  It is one lexeme, and so
    neither a comma nor a parenthesis. -/
theorem inClause_enclosed (s : List Char) : InClause (enclosed '\'' '\'' s) [.literal s] :=
  ⟨scansTo_enclosed s, rfl, by simp⟩

/-- Characters may come before what stands in a clause. -/
theorem InClause.append_chars {a b : List Char} {ls : List Lexeme} (ha : Whole a)
    (hb : InClause b ls) : InClause (a ++ b) (a.map Lexeme.char ++ ls) where
  scans := hb.scans.append_chars ha.quote
  clause := ha.clause.append hb.clause
  semicolon h := (List.mem_append.mp h).elim ha.semicolon_notMem hb.semicolon

end Gridbase.Text
