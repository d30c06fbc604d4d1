import Gridbase.Proofs.Gateway.Session
import Gridbase.Proofs.Statement.Structure

/-! # What is logged is what is run

    A session runs the structure of a statement and logs its query, which is a text with its
    parameters.  No text is ever read by the database.  That nothing is lost by this is shown
    here: the query that is logged is the one that the statement is built to, and statements that
    are built to one query do the same in every session (`Manipulation.sent_of_build`).

    The text tells the outline of a statement, and the parameters tell its values.  What they do
    not tell is how the first condition joins those before it, since there are none
    (`Manipulation.leading_eq`); and no search asks for it (`Search.terms_leading`). -/

namespace Gridbase

/-! ## Statements of one query -/

/-- Two lists are the same if two projections of them are, which tell the items apart. -/
theorem eq_of_projections {α β γ : Type} {f : α → β} {g : α → γ}
    (happart : ∀ a b, f a = f b → g a = g b → a = b) {as bs : List α}
    (hf : as.map f = bs.map f) (hg : as.map g = bs.map g) : as = bs := by
  induction as generalizing bs with
  | nil => exact (List.map_eq_nil_iff.mp hf.symm).symm
  | cons a as ih =>
      cases bs with
      | nil => exact nomatch hf
      | cons b bs =>
          obtain ⟨hfirst, hfrest⟩ := List.cons.inj hf
          obtain ⟨hsecond, hgrest⟩ := List.cons.inj hg
          rw [happart a b hfirst hsecond, ih hfrest hgrest]

namespace Condition

/-- The conditions with AND before the first one, which joins nothing. -/
def leading : List Condition → List Condition
  | [] => []
  | c :: rest => { c with connector := .and } :: rest

theorem leading_eq {cs ds : List Condition} (hcomparisons : comparisons cs = comparisons ds)
    (hvalues : cs.map Condition.value = ds.map Condition.value) : leading cs = leading ds := by
  cases cs with
  | nil => rw [List.map_eq_nil_iff.mp hvalues.symm]
  | cons c cs =>
      cases ds with
      | nil => cases hvalues
      | cons e ds =>
          obtain ⟨hcomparison, hcomparisons⟩ := List.cons.inj hcomparisons
          obtain ⟨hvalue, hvalues⟩ := List.cons.inj hvalues
          have hcolumn : c.column = e.column := congrArg Comparison.column hcomparison
          have hoperator : c.operator = e.operator := congrArg Comparison.operator hcomparison
          -- behind the first condition everything is in the outline or among the values
          have hrest : cs = ds := by
            refine eq_of_projections (fun a b hcomparison hvalue => ?_) hcomparisons hvalues
            cases a
            cases b
            cases hcomparison
            cases hvalue
            rfl
          rw [leading, leading, hcolumn, hoperator, hvalue, hrest]

theorem map_column_leading (cs : List Condition) :
    (leading cs).map Word.ofCondition = cs.map Word.ofCondition := by
  cases cs <;> rfl

end Condition

namespace Manipulation

/-- The statement with AND before its first condition. -/
def leading : Manipulation → Manipulation
  | .select s => .select { s with conditions := Condition.leading s.conditions }
  | .insert s => .insert s
  | .update s => .update { s with conditions := Condition.leading s.conditions }
  | .delete s => .delete { s with conditions := Condition.leading s.conditions }

/-- The values of a statement, in the order of its text.  These are the parameters of
    its query, under their own names. -/
def values (m : Manipulation) : List Value := m.sites.map Site.value

theorem values_insert (s : Insert) : (insert s).values = s.values := by
  show (Insert.sites s.values).map Site.value = s.values
  cases s.values with
  | nil => rfl
  | cons v rest =>
      rw [Insert.sites, List.map_cons, List.map_map]
      exact congrArg (List.cons v) (List.map_id _)

theorem values_select (s : Select) :
    (select s).values = s.conditions.map Condition.value := List.map_map ..

theorem values_delete (s : Delete) :
    (delete s).values = s.conditions.map Condition.value := List.map_map ..

theorem values_update (s : Update) :
    (update s).values = s.assignments.map Entry.value ++ s.conditions.map Condition.value := by
  rw [values, sites, List.map_append, List.map_map, List.map_map]
  rfl

/-- **AN OUTLINE AND VALUES** make a statement, but for the connector of its first condition. -/
theorem leading_eq {a b : Manipulation} (houtline : a.outline = b.outline)
    (hvalues : a.values = b.values) : a.leading = b.leading := by
  cases a with
  | select s =>
      cases b with
      | select t =>
          obtain ⟨htable, hcolumns, hconditions, horder⟩ := Outline.select.inj houtline
          rw [values_select, values_select] at hvalues
          rw [leading, leading, htable, hcolumns, Condition.leading_eq hconditions hvalues, horder]
      | insert | update | delete => cases houtline
  | insert s =>
      cases b with
      | insert t =>
          obtain ⟨htable, hcolumns, -⟩ := Outline.insert.inj houtline
          rw [values_insert, values_insert] at hvalues
          cases s
          cases t
          cases htable
          cases hcolumns
          cases hvalues
          rfl
      | select | update | delete => cases houtline
  | update s =>
      cases b with
      | update t =>
          obtain ⟨htable, hassigned, hconditions⟩ := Outline.update.inj houtline
          have hlength : (s.assignments.map Entry.value).length
              = (t.assignments.map Entry.value).length := by
            rw [List.length_map, List.length_map, ← List.length_map (f := Entry.name), hassigned,
              List.length_map]
          rw [values_update, values_update] at hvalues
          obtain ⟨hassignedValues, hconditionValues⟩ := List.append_inj hvalues hlength
          have hassignments : s.assignments = t.assignments := by
            refine eq_of_projections (fun a b hname hvalue => ?_) hassigned hassignedValues
            cases a
            cases b
            cases hname
            cases hvalue
            rfl
          rw [leading, leading, htable, hassignments,
            Condition.leading_eq hconditions hconditionValues]
      | select | insert | delete => cases houtline
  | delete s =>
      cases b with
      | delete t =>
          obtain ⟨htable, hconditions⟩ := Outline.delete.inj houtline
          rw [values_delete, values_delete] at hvalues
          rw [leading, leading, htable, Condition.leading_eq hconditions hvalues]
      | select | insert | update => cases houtline

/-- **STATEMENTS OF ONE QUERY** are the same, but for the connector of the first
    condition.  The outline is read back from the text, and the values from the
    parameters. -/
theorem leading_eq_of_build {d : Dialect} {a b : Manipulation} {q : Query} (ha : a.Named d)
    (hb : b.Named d) (hp : a.build d = .ok q) (hq : b.build d = .ok q) :
    a.leading = b.leading := by
  obtain ⟨x, hx, rfl⟩ := build_eq_ok hp
  obtain ⟨y, hy, hsame⟩ := build_eq_ok hq
  have htexts := congrArg Query.sql hsame
  have hparameters : ((Query.collect 0 (a.fragments x)).map Parameter.value)
      = (Query.collect 0 (b.fragments y)).map Parameter.value :=
    congrArg (fun q => q.parameters.map Parameter.value) hsame
  rw [(binds ha hx).values_collect, (binds hb hy).values_collect] at hparameters
  exact leading_eq (outline_eq ha hb hx hy htexts) hparameters

end Manipulation

/-! ## The first connector -/

namespace Search

/-- The term of a condition that is joined in another way. -/
theorem term_joined (t : Table) (c : Condition) (k : Connector) :
    term t { c with connector := k } = (term t c).map fun x => { x with connector := k } := by
  rw [term, term]
  cases column t c.column <;> rfl

/-- **NO SEARCH ASKS** how the first condition is joined.  The first term is joined to
    nothing, so its connector is looked at by neither. -/
theorem terms_leading (t : Table) (cs : List Condition) :
    (∃ fault, terms t (Condition.leading cs) = .error fault ∧ terms t cs = .error fault)
      ∨ ∃ led found, terms t (Condition.leading cs) = .ok led ∧ terms t cs = .ok found
          ∧ selects led = selects found := by
  cases cs with
  | nil => exact Or.inr ⟨[], [], rfl, rfl, rfl⟩
  | cons c cs =>
      rw [Condition.leading, terms, terms, term_joined]
      cases term t c with
      | error fault => exact Or.inl ⟨fault, rfl, rfl⟩
      | ok x =>
          cases terms t cs with
          | error fault => exact Or.inl ⟨fault, rfl, rfl⟩
          | ok rest => exact Or.inr ⟨_, _, rfl, rfl, rfl⟩

/-- So whatever goes on with what is selected goes on alike. -/
theorem bind_terms_leading {α : Type} (t : Table) (cs : List Condition)
    {k : List Term → Except StoreFault α}
    (hk : ∀ led found, selects led = selects found → k led = k found) :
    (terms t (Condition.leading cs) >>= k) = (terms t cs >>= k) := by
  rcases terms_leading t cs with ⟨fault, hled, hfound⟩ | ⟨led, found, hled, hfound, hselects⟩
  · rw [hled, hfound]
  · rw [hled, hfound]
    exact hk led found hselects

end Search

namespace Database

variable (db : Database)

theorem select_leading (s : Select) :
    db.select { s with conditions := Condition.leading s.conditions } = db.select s := by
  have hwords : Select.words { s with conditions := Condition.leading s.conditions }
      = s.words := by rw [Select.words, Select.words, Condition.map_column_leading]
  rw [select, select, hwords]
  refine bind_congr fun _ => bind_congr fun t => bind_congr fun positions => ?_
  exact Search.bind_terms_leading t _ fun led found h => by rw [h]

theorem update_leading (s : Update) :
    db.update { s with conditions := Condition.leading s.conditions } = db.update s := by
  have hwords : Update.words { s with conditions := Condition.leading s.conditions }
      = s.words := by rw [Update.words, Update.words, Condition.map_column_leading]
  rw [update, update, hwords]
  refine bind_congr fun _ => bind_congr fun t => ?_
  dsimp only
  split
  · rfl
  · exact Search.bind_terms_leading t _ fun led found h => by rw [h]

theorem delete_leading (s : Delete) :
    db.delete { s with conditions := Condition.leading s.conditions } = db.delete s := by
  have hwords : Delete.words { s with conditions := Condition.leading s.conditions }
      = s.words := by rw [Delete.words, Delete.words, Condition.map_column_leading]
  rw [delete, delete, hwords]
  refine bind_congr fun _ => bind_congr fun t => ?_
  exact Search.bind_terms_leading t _ fun led found h => by rw [h]

end Database

/-! ## What is run -/

namespace Manipulation

/-- What a database makes of a statement: rows for a selection, a count for a change, and the
    database afterwards. -/
def answer (db : Database) : Manipulation → Except StoreFault ((List Row × Nat) × Database)
  | .select s => do return ((← db.select s, 0), db)
  | .insert s => do let (count, after) ← db.insert s; return (([], count), after)
  | .update s => do let (count, after) ← db.update s; return (([], count), after)
  | .delete s => do let (count, after) ← db.delete s; return (([], count), after)

theorem answer_leading (db : Database) (m : Manipulation) :
    m.leading.answer db = m.answer db := by
  cases m with
  | select s => rw [leading, answer, answer, db.select_leading]
  | insert s => rfl
  | update s => rw [leading, answer, answer, db.update_leading]
  | delete s => rw [leading, answer, answer, db.delete_leading]

/-- Sends a statement: a selection gives rows and changes nothing, and the others give
    the number of rows that they changed. -/
def sent : Manipulation → Action (List Row × Nat)
  | .select s => do return (← Session.ask s, 0)
  | .insert s => do return ([], ← Session.send (.insert s))
  | .update s => do return ([], ← Session.send (.update s))
  | .delete s => do return ([], ← Session.send (.delete s))

/-- **THE LOG TELLS WHAT IS RUN.**  The query that is logged is that of the statement that is run,
    and every statement with valid names that has this query is run alike. -/
theorem sent_of_build {m : Manipulation} {q : Query} (hm : m.Named .sqlite)
    (hbuild : m.build .sqlite = .ok q) (s : Session) :
    (m.sent.run s
        = match m.answer s.database with
          | .ok (result, database) => (.ok result, s.sending q database)
          | .error fault => (.error fault.toFailure, s.sending q s.database))
      ∧ ∀ other : Manipulation, other.Named .sqlite → other.build .sqlite = .ok q →
        other.sent.run s = m.sent.run s := by
  -- what is sent is answered by the structure; the query is only noted
  have hrun (m : Manipulation) (hbuild : m.build .sqlite = .ok q) : m.sent.run s
      = match m.answer s.database with
        | .ok (result, database) => (.ok result, s.sending q database)
        | .error fault => (.error fault.toFailure, s.sending q s.database) := by
    cases m with
    | select select =>
        rw [sent, Session.run_bind, Session.run_ask hbuild, answer]
        cases s.database.select select <;> rfl
    | insert insert =>
        have hchange : (Statement.insert insert).build .sqlite = .ok q := hbuild
        rw [sent, Session.run_bind, Session.run_send hchange, answer, Database.execute]
        cases s.database.insert insert <;> rfl
    | update update =>
        have hchange : (Statement.update update).build .sqlite = .ok q := hbuild
        rw [sent, Session.run_bind, Session.run_send hchange, answer, Database.execute]
        cases s.database.update update <;> rfl
    | delete delete =>
        have hchange : (Statement.delete delete).build .sqlite = .ok q := hbuild
        rw [sent, Session.run_bind, Session.run_send hchange, answer, Database.execute]
        cases s.database.delete delete <;> rfl
  refine ⟨hrun m hbuild, fun other hother hsame => ?_⟩
  rw [hrun m hbuild, hrun other hsame, ← answer_leading, ← answer_leading s.database m,
    leading_eq_of_build hother hm hsame hbuild]

end Manipulation

end Gridbase
