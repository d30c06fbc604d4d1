import Gridbase.Gateway.Session

/-! # Sessions — actions taken apart

    A run of an action gives a result or a failure, and the session that it leaves
    either way: `run_bind` and the equations of the single steps say which.

    `Yields x s a s'` says that the action `x` gives `a` from the session `s` and
    leaves the session `s'`.  An action that succeeds is a chain of steps that
    succeed, so a gateway operation is read from its parts, first to last. -/

namespace Gridbase.Session

/-! ## Runs -/

/-- **A CHAIN STOPS AT A FAILURE**, of whatever kind, and keeps the session that the failure
    left. -/
theorem run_bind {ε α β : Type} (x : ExceptT ε (StateM Session) α)
    (f : α → ExceptT ε (StateM Session) β) (s : Session) :
    (x >>= f).run s
      = match x.run s with
        | (.ok a, s') => (f a).run s'
        | (.error e, s') => (.error e, s') := by
  show (match x.run s with
    | (r, s') => ExceptT.bindCont f r s') = _
  rcases x.run s with ⟨e | a, s'⟩ <;> rfl

/-- A result that is dropped does not matter to what follows. -/
theorem run_discard {α : Type} (x : Action α) (s : Session) :
    (discard x).run s
      = match x.run s with
        | (.ok _, s') => (.ok (), s')
        | (.error e, s') => (.error e, s') := by
  show (x >>= fun _ => pure ()).run s = _
  rw [run_bind]
  rcases x.run s with ⟨e | a, s'⟩ <;> rfl

theorem run_discard_bind {α β : Type} (x : Action α) (f : Unit → Action β) (s : Session) :
    (discard x >>= f).run s
      = match x.run s with
        | (.ok _, s') => (f ()).run s'
        | (.error e, s') => (.error e, s') := by
  rw [run_bind, run_discard]
  rcases x.run s with ⟨e | a, s'⟩ <;> rfl

/-- A check gives its result and leaves the session alone. -/
theorem run_require {α : Type} (result : Except Failure α) (s : Session) :
    (require result).run s = (result, s) := by
  cases result <;> rfl

/-- A check before a chain decides whether there is a chain. -/
theorem run_require_bind {α β : Type} (result : Except Failure α) (f : α → Action β)
    (s : Session) :
    (require result >>= f).run s
      = match result with
        | .ok a => (f a).run s
        | .error e => (.error e, s) := by
  rw [run_bind, run_require]
  cases result <;> rfl

/-- Checks may be made one by one. -/
theorem require_bind {α β : Type} (x : Except Failure α) (f : α → Except Failure β) :
    require (x >>= f) = require x >>= fun a => require (f a) := by
  cases x <;> rfl

/-- The session after a query has been sent and has left a database.  The log grows at
    its end. -/
def sending (s : Session) (q : Query) (database : Database) : Session where
  database := database
  sent := s.sent ++ [q]

@[simp] theorem database_sending (s : Session) (q : Query) (database : Database) :
    (s.sending q database).database = database := rfl

/-- **SENDING A STATEMENT** gives the count of the database or its fault; a fault leaves
    the database alone. -/
theorem run_send {statement : Statement} {q : Query} (h : statement.build .sqlite = .ok q)
    (s : Session) :
    (send statement).run s
      = match s.database.execute statement with
        | .ok (count, database) => (.ok count, s.sending q database)
        | .error fault => (.error fault.toFailure, s.sending q s.database) := by
  have hprepared : prepared (statement.build .sqlite) = pure q := by
    rw [h]
    rfl
  rw [send, hprepared]
  show (match s.database.execute statement with
    | .ok (count, database) =>
        (do modify fun session : Session => { session with database }; return count : Action Nat)
    | .error fault => throw fault.toFailure).run (s.sending q s.database) = _
  cases s.database.execute statement <;> rfl

/-- **SENDING A SELECTION** gives the rows of the database or its fault, and leaves the
    database alone. -/
theorem run_ask {select : Select} {q : Query} (h : select.build .sqlite = .ok q) (s : Session) :
    (ask select).run s
      = match s.database.select select with
        | .ok rows => (.ok rows, s.sending q s.database)
        | .error fault => (.error fault.toFailure, s.sending q s.database) := by
  have hprepared : prepared (select.build .sqlite) = pure q := by
    rw [h]
    rfl
  rw [ask, hprepared]
  show (match s.database.select select with
    | .ok rows => (return rows : Action (List Row))
    | .error fault => throw fault.toFailure).run (s.sending q s.database) = _
  cases s.database.select select <;> rfl

/-! ## Success -/

/-- The action succeeds with a result and leaves a session.  Failures are followed
    separately, where they matter. -/
def Yields {α : Type} (x : Action α) (s : Session) (a : α) (s' : Session) : Prop :=
  x.run s = (.ok a, s')

variable {α β : Type} {s s' : Session}

theorem yields_pure {a b : α} : Yields (pure a) s b s' ↔ a = b ∧ s = s' := by
  constructor
  · intro h
    cases h
    exact ⟨rfl, rfl⟩
  · rintro ⟨rfl, rfl⟩
    rfl

/-- A failure succeeds with nothing. -/
theorem not_yields_throw {f : Failure} {a : α} : ¬ Yields (throw f) s a s' := by
  intro h
  exact nomatch (congrArg Prod.fst h : (Except.error f : Except Failure α) = .ok a)

/-- **A CHAIN SUCCEEDS** when both of its steps do, one after the other.  This is what
    lets a success be read backwards, step by step, with the session in between. -/
theorem yields_bind {x : Action α} {f : α → Action β} {b : β} :
    Yields (x >>= f) s b s' ↔ ∃ a s₁, Yields x s a s₁ ∧ Yields (f a) s₁ b s' := by
  rw [Yields, run_bind]
  -- the first action fails, and the chain with it, or the second one goes on from its session
  cases hx : x.run s with
  | mk r s₁ =>
      cases r with
      | error e =>
          constructor
          · intro h
            exact nomatch congrArg Prod.fst h
          · rintro ⟨a, s₂, ha, -⟩
            rw [Yields, hx] at ha
            exact nomatch congrArg Prod.fst ha
      | ok a =>
          constructor
          · intro h
            exact ⟨a, s₁, hx, h⟩
          · rintro ⟨a', s₂, ha, hf⟩
            rw [Yields, hx] at ha
            cases ha
            exact hf

/-- Dropping a result drops nothing else. -/
theorem yields_discard {x : Action α} :
    Yields (discard x) s () s' ↔ ∃ a, Yields x s a s' := by
  show Yields (x >>= fun _ => pure ()) s () s' ↔ _
  rw [yields_bind]
  constructor
  · rintro ⟨a, s₁, hx, hpure⟩
    obtain ⟨-, rfl⟩ := yields_pure.mp hpure
    exact ⟨a, hx⟩
  · rintro ⟨a, hx⟩
    exact ⟨a, s', hx, yields_pure.mpr ⟨rfl, rfl⟩⟩

/-- A function of the result does not change the run. -/
theorem yields_map {f : α → β} {x : Action α} {b : β} :
    Yields (f <$> x) s b s' ↔ ∃ a, Yields x s a s' ∧ f a = b := by
  rw [← bind_pure_comp, yields_bind]
  constructor
  · rintro ⟨a, s₁, hx, hpure⟩
    obtain ⟨rfl, rfl⟩ := yields_pure.mp hpure
    exact ⟨a, hx, rfl⟩
  · rintro ⟨a, hx, rfl⟩
    exact ⟨a, s', hx, yields_pure.mpr ⟨rfl, rfl⟩⟩

/-- A check that succeeds leaves the session alone. -/
theorem yields_require {result : Except Failure α} {a : α} :
    Yields (require result) s a s' ↔ result = .ok a ∧ s = s' := by
  cases result with
  | ok b =>
      show Yields (pure b) s a s' ↔ _
      rw [yields_pure, Except.ok.injEq]
  | error f =>
      constructor
      · intro h
        exact absurd h not_yields_throw
      · rintro ⟨h, -⟩
        exact nomatch h

/-- A completed query leaves the session alone. -/
theorem yields_prepared {query : Except Incomplete Query} {q : Query} :
    Yields (prepared query) s q s' ↔ query = .ok q ∧ s = s' := by
  have hquery : prepared query = require (query.mapError .configuration) := by
    cases query <;> rfl
  rw [hquery, yields_require]
  cases query with
  | ok p =>
      show Except.ok p = Except.ok q ∧ s = s' ↔ _
      rw [Except.ok.injEq, Except.ok.injEq]
  | error cause =>
      constructor
      · rintro ⟨h, -⟩
        cases h
      · rintro ⟨h, -⟩
        cases h

/-- A query is noted at the end. -/
theorem yields_note {q : Query} {u : Unit} :
    Yields (note q) s u s' ↔ { s with sent := s.sent ++ [q] } = s' := by
  constructor
  · intro h
    cases h
    rfl
  · rintro rfl
    rfl

/-- The session that is seen is the present one. -/
theorem yields_get {s₁ : Session} :
    Yields (MonadState.get : Action Session) s s₁ s' ↔ s = s₁ ∧ s = s' := by
  constructor
  · intro h
    cases h
    exact ⟨rfl, rfl⟩
  · rintro ⟨rfl, rfl⟩
    rfl

/-- **A STATEMENT THAT SUCCEEDS** has changed the database, and its query is noted as
    sent. -/
theorem yields_execute {statement : Statement} {q : Query} {n : Nat} :
    Yields (execute statement q) s n s' ↔
      ∃ database, s.database.execute statement = .ok (n, database)
        ∧ s' = { database, sent := s.sent ++ [q] } := by
  rw [execute, yields_bind]
  constructor
  · rintro ⟨_, s₁, hnote, h⟩
    obtain rfl := yields_note.mp hnote
    obtain ⟨_, _, hget, h⟩ := yields_bind.mp h
    obtain ⟨rfl, rfl⟩ := yields_get.mp hget
    dsimp only at h
    -- the only step that can fail is the statement itself
    cases hx : s.database.execute statement with
    | error fault =>
        rw [hx] at h
        exact absurd h not_yields_throw
    | ok result =>
        obtain ⟨count, database⟩ := result
        rw [hx] at h
        cases h
        exact ⟨database, rfl, rfl⟩
  · rintro ⟨database, hx, rfl⟩
    refine ⟨(), _, yields_note.mpr rfl, ?_⟩
    refine yields_bind.mpr ⟨_, _, yields_get.mpr ⟨rfl, rfl⟩, ?_⟩
    dsimp only
    rw [hx]
    rfl

end Gridbase.Session
