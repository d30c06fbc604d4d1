import Gridbase.Proofs.Statement.Calls

/-! # The order of calls

    A statement is made by calls, each on one of its clauses, and can be built between them.

    * Calls on different clauses leave each other's clause alone, so that they can change places
      (`Builder.independent`, shown for each kind of statement).
    * Calls in two orders have the SAME CLAUSES if each clause is called in the same way, call
      for call (`Builder.SameClauses`).  They make one statement: the first call of the one order
      is brought to the front of the other, step by step (`Builder.made_of_sameClauses`).
    * A build answers and leaves the statement as it is, so what was built before does not show in
      any later answer (`Builder.later_eq`).

    Both together are `StatementKind.order_of_calls`. -/

namespace Gridbase

/-! ## Clauses -/

/-- The clauses of statements.  Calls on one clause keep their order; calls on different
    clauses may change places. -/
inductive Clause
  | table
  | existence
  | columns
  | assignments
  | conditions
  | order
deriving DecidableEq

/-- A call that adds to a CREATE TABLE statement.  The last name that is given counts,
    and columns are added in order. -/
inductive CreateTable.Call
  | named (table : String)
  | unlessExists
  | column (c : ColumnClause)
deriving DecidableEq

/-- The statement after one more call. -/
def CreateTable.call (s : CreateTable) : CreateTable.Call → CreateTable
  | .named table => s.named table
  | .unlessExists => s.unlessExists
  | .column c => s.column c

/-- The clause that a call is on. -/
def Select.Call.clause : Select.Call → Clause
  | .ofTable _ => .table
  | .only _ => .columns
  | .condition _ => .conditions
  | .orderBy .. => .order

/-- The clause that a call is on.  Values belong to the columns that they are given for. -/
def Insert.Call.clause : Insert.Call → Clause
  | .intoTable _ => .table
  | .only _ | .append _ | .row _ => .columns

/-- The clause that a call is on. -/
def Update.Call.clause : Update.Call → Clause
  | .ofTable _ => .table
  | .assign .. | .row _ => .assignments
  | .condition _ => .conditions

/-- The clause that a call is on. -/
def Delete.Call.clause : Delete.Call → Clause
  | .ofTable _ => .table
  | .condition _ => .conditions

/-- The clause that a call is on. -/
def CreateTable.Call.clause : CreateTable.Call → Clause
  | .named _ => .table
  | .unlessExists => .existence
  | .column _ => .columns

/-! ## Calls on different clauses -/

theorem Select.call_comm (s : Select) (x y : Select.Call) (h : x.clause ≠ y.clause) :
    (s.call x).call y = (s.call y).call x := by
  cases x <;> cases y <;> first | rfl | exact absurd rfl h

theorem Insert.call_comm (s : Insert) (x y : Insert.Call) (h : x.clause ≠ y.clause) :
    (s.call x).call y = (s.call y).call x := by
  cases x <;> cases y <;> first | rfl | exact absurd rfl h

theorem Update.call_comm (s : Update) (x y : Update.Call) (h : x.clause ≠ y.clause) :
    (s.call x).call y = (s.call y).call x := by
  cases x <;> cases y <;> first | rfl | exact absurd rfl h

theorem Delete.call_comm (s : Delete) (x y : Delete.Call) (h : x.clause ≠ y.clause) :
    (s.call x).call y = (s.call y).call x := by
  cases x <;> cases y <;> first | rfl | exact absurd rfl h

theorem CreateTable.call_comm (s : CreateTable) (x y : CreateTable.Call)
    (h : x.clause ≠ y.clause) : (s.call x).call y = (s.call y).call x := by
  cases x <;> cases y <;> first | rfl | exact absurd rfl h

/-! ## Builders -/

/-- A kind of statement that is made by calls: what it begins with, what a call does to
    it, and what is built of it.  That calls on different clauses can change places is
    part of it, so no order has to be looked at for a single kind. -/
structure Builder where
  Statement : Type
  Call : Type
  blank : Statement
  call : Statement → Call → Statement
  clause : Call → Clause
  build : Dialect → Statement → Except Incomplete Query
  /-- Calls on different clauses can change places. -/
  independent : ∀ s x y, clause x ≠ clause y → call (call s x) y = call (call s y) x

/-- The kinds of statements that are made by calls. -/
inductive StatementKind
  | select
  | insert
  | update
  | delete
  | createTable
deriving DecidableEq

/-- How the statements of a kind are made.  Each of the five proves its own exchange of
    calls here. -/
def StatementKind.builder : StatementKind → Builder
  | select =>
      ⟨Select, Select.Call, {}, Select.call, Select.Call.clause, fun d s => s.build d,
        Select.call_comm⟩
  | insert =>
      ⟨Insert, Insert.Call, {}, Insert.call, Insert.Call.clause, fun d s => s.build d,
        Insert.call_comm⟩
  | update =>
      ⟨Update, Update.Call, {}, Update.call, Update.Call.clause, fun d s => s.build d,
        Update.call_comm⟩
  | delete =>
      ⟨Delete, Delete.Call, {}, Delete.call, Delete.Call.clause, fun d s => s.build d,
        Delete.call_comm⟩
  | createTable =>
      ⟨CreateTable, CreateTable.Call, {}, CreateTable.call, CreateTable.Call.clause,
        fun d s => s.build d, CreateTable.call_comm⟩

namespace Builder

variable {b : Builder} {d : Dialect}

/-- The statement that calls make, one after another, from the blank one. -/
def made (b : Builder) (calls : List b.Call) : b.Statement := calls.foldl b.call b.blank

/-- Every clause is called in the same way: the same calls in the same order. -/
def SameClauses (b : Builder) (xs ys : List b.Call) : Prop :=
  ∀ clause, xs.filter (fun c => b.clause c = clause) = ys.filter fun c => b.clause c = clause

/-- A call can be brought to the front of calls on other clauses. -/
theorem foldl_front (c : b.Call) {xs : List b.Call} (h : ∀ x ∈ xs, b.clause x ≠ b.clause c) :
    ∀ s, b.call (xs.foldl b.call s) c = xs.foldl b.call (b.call s c) := by
  induction xs with
  | nil => exact fun _ => rfl
  | cons x xs ih =>
      obtain ⟨hx, hxs⟩ := List.forall_mem_cons.mp h
      intro s
      rw [List.foldl_cons, List.foldl_cons, ih hxs, b.independent s x c hx]

/-- Without calls no clause is called. -/
theorem eq_nil_of_sameClauses {ys : List b.Call} (h : b.SameClauses [] ys) : ys = [] := by
  cases ys with
  | nil => rfl
  | cons y ys =>
      have hy := h (b.clause y)
      rw [List.filter_cons_of_pos (by simp)] at hy
      exact nomatch hy

/-- The first call stands somewhere in the other order, behind calls on other clauses, and what is
    left of both orders has the same clauses again. -/
theorem SameClauses.split {x : b.Call} {xs ys : List b.Call} (h : b.SameClauses (x :: xs) ys) :
    ∃ before after, ys = before ++ x :: after ∧ (∀ y ∈ before, b.clause y ≠ b.clause x)
      ∧ b.SameClauses xs (before ++ after) := by
  have hx := (h (b.clause x)).symm
  rw [List.filter_cons_of_pos (by simp)] at hx
  obtain ⟨before, after, rfl, hbefore, -, hafter⟩ := List.filter_eq_cons_iff.mp hx
  have hother : ∀ y ∈ before, b.clause y ≠ b.clause x := by
    intro y hy hsame
    exact hbefore y hy (by simpa using hsame)
  refine ⟨before, after, rfl, hother, fun clause => ?_⟩
  -- without the call, its own clause loses its first call and the others nothing
  by_cases hclause : b.clause x = clause
  · subst hclause
    have hnone : before.filter (fun c => b.clause c = b.clause x) = [] :=
      List.filter_eq_nil_iff.mpr hbefore
    rw [List.filter_append, hnone, List.nil_append, hafter]
  · have hrest := h clause
    rw [List.filter_cons_of_neg (by simpa using hclause), List.filter_append,
      List.filter_cons_of_neg (by simpa using hclause)] at hrest
    rw [hrest, List.filter_append]

/-- **THE ORDER OF CALLS ACROSS CLAUSES** does not matter to the statement.  By
    induction on the first calls: the first of them is found in the others, and brought
    to their front. -/
theorem foldl_of_sameClauses {xs : List b.Call} :
    ∀ {ys : List b.Call}, b.SameClauses xs ys →
      ∀ s, xs.foldl b.call s = ys.foldl b.call s := by
  induction xs with
  | nil =>
      intro ys h s
      rw [eq_nil_of_sameClauses h]
  | cons x xs ih =>
      intro ys h s
      obtain ⟨before, after, rfl, hbefore, hrest⟩ := h.split
      -- `x` is brought to the front, and the induction is on what both orders then have left
      rw [List.foldl_cons, ih hrest, List.foldl_append, List.foldl_append, List.foldl_cons,
        foldl_front x hbefore]

/-! ## Answers along the way -/

/-- What is done with a builder: one more call, or the statement is built.  A build may
    come before the statement is complete. -/
inductive Step (b : Builder)
  | call (c : b.Call)
  | build

/-- The call that a step makes. -/
def Step.call? : b.Step → Option b.Call
  | call c => some c
  | build => none

/-- The calls among steps. -/
def calls (steps : List b.Step) : List b.Call := steps.filterMap Step.call?

/-- The answers of the builds along steps from a statement.  A build gives a query or
    says what is missing, and leaves the statement alone. -/
def answersFrom (d : Dialect) : b.Statement → List b.Step → List (Except Incomplete Query)
  | _, [] => []
  | s, .call c :: rest => answersFrom d (b.call s c) rest
  | s, .build :: rest => b.build d s :: answersFrom d s rest

/-- The answers of the builds along steps. -/
def answers (d : Dialect) (steps : List b.Step) : List (Except Incomplete Query) :=
  answersFrom d b.blank steps

/-- The answers that come after those of some first steps: what is seen of those steps
    from then on. -/
def later (d : Dialect) (first rest : List b.Step) : List (Except Incomplete Query) :=
  (answers d (first ++ rest)).drop (answers d first).length

/-- **A BUILD ANSWERS** and leaves the statement as the calls have made it.  So builds
    in between can be left out when only later answers are looked at. -/
theorem answersFrom_append (first rest : List b.Step) :
    ∀ s, answersFrom d s (first ++ rest)
      = answersFrom d s first ++ answersFrom d ((calls first).foldl b.call s) rest := by
  induction first with
  | nil => exact fun _ => rfl
  | cons step first ih =>
      intro s
      cases step with
      | call c => exact ih (b.call s c)
      | build => exact congrArg (b.build d s :: ·) (ih s)

/-- Later answers are those of the statement that the calls have made. -/
theorem later_eq (first rest : List b.Step) :
    later d first rest = answersFrom d (b.made (calls first)) rest := by
  show (answersFrom d b.blank (first ++ rest)).drop (answersFrom d b.blank first).length = _
  rw [answersFrom_append, List.drop_left]
  rfl

end Builder

/-! ## Statements -/

/-- **THE ORDER OF CALLS ACROSS CLAUSES DOES NOT MATTER**, and neither does what was built between
    them: if two orders have the same clauses, the statements have one query or the same fault, and
    all that is built later is the same. -/
theorem StatementKind.order_of_calls (kind : StatementKind) (d : Dialect)
    {first second : List kind.builder.Step}
    (h : kind.builder.SameClauses (Builder.calls first) (Builder.calls second)) :
    kind.builder.build d (kind.builder.made (Builder.calls first))
        = kind.builder.build d (kind.builder.made (Builder.calls second))
      ∧ ∀ rest, Builder.later d first rest = Builder.later d second rest := by
  have hmade : kind.builder.made (Builder.calls first) = kind.builder.made (Builder.calls second) :=
    Builder.foldl_of_sameClauses h kind.builder.blank
  refine ⟨congrArg (kind.builder.build d) hmade, fun rest => ?_⟩
  rw [Builder.later_eq, Builder.later_eq, hmade]

/-- The condition on the number of a person. -/
def numberSeven : Condition := ⟨.and, "id", .eq, .int 7⟩

/-- A change that says which rows it is for before it says what is changed, and is built early. -/
def hastyChange : List StatementKind.update.builder.Step :=
  [.call (Update.Call.condition numberSeven), .build, .call (Update.Call.ofTable "people"), .build,
    .call (Update.Call.assign "name" (.text "Ada"))]

/-- The same change in the order of its text. -/
def orderlyChange : List StatementKind.update.builder.Step :=
  [.call (Update.Call.ofTable "people"), .call (Update.Call.assign "name" (.text "Ada")),
    .call (Update.Call.condition numberSeven)]

/-- The change is the same, and the first parameter is that of the assignment.  Its
    early builds are answered with what was missing at the time. -/
theorem StatementKind.order_of_calls_update :
    StatementKind.update.builder.SameClauses (Builder.calls hastyChange)
        (Builder.calls orderlyChange)
      ∧ Builder.later .sqlite hastyChange [.build] = Builder.later .sqlite orderlyChange [.build]
      ∧ Builder.later .sqlite hastyChange [.build]
        = [.ok ⟨"UPDATE people SET name = ?1 WHERE id = ?2;",
          [⟨"@p0", .text "Ada"⟩, ⟨"@p1", .int 7⟩]⟩]
      ∧ Builder.answers .sqlite hastyChange = [.error .missingTable, .error .noAssignments] := by
  have hsame : StatementKind.update.builder.SameClauses (Builder.calls hastyChange)
      (Builder.calls orderlyChange) := by
    intro clause
    cases clause <;> rfl
  exact ⟨hsame, (StatementKind.order_of_calls .update .sqlite hsame).2 [.build], rfl, rfl⟩

end Gridbase
