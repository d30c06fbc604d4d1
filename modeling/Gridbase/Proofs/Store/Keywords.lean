import Gridbase.Proofs.Store.Rows
import Gridbase.Proofs.Text.Lead

/-! # Statements that are refused at a word

    The check on the words of a statement comes before anything else is looked at, and nothing
    but this check refuses a text at some token.

    * A computation is PLAIN if it refuses no token (`Plain`); whatever a statement does after
      the check on its words is plain.
    * So a token is refused because of one of the words (`ChecksFirst.exists_refused`), and a
      statement with a word that is no name at its place always fails at some token
      (`ChecksFirst.error_of_refused`).
    * The failure that is handed on tells the token (`StoreFault.unexpected_of_toFailure`), since
      no other message of the store begins like the one for a token. -/

namespace Gridbase

open Gridbase.Text

/-! ## Failures of the store -/

/-- The message of a failure that a database reports.  Refusals of arguments are no
    reports. -/
def Failure.reported? : Failure → Option String
  | .notFound m | .conflict m | .storage m _ => some m
  | _ => none

namespace StoreFault

/-- The token that is refused, if the fault is of this kind. -/
def token? : StoreFault → Option String
  | unexpected token => some token
  | _ => none

/-- A fault is handed on with its message. -/
theorem reported?_toFailure (fault : StoreFault) :
    fault.toFailure.reported? = some fault.message := by
  have hdriver (m : String) (code : Option String) (unique : Bool) :
      (DriverError.database m code unique).toFailure.reported? = some m := by
    rw [DriverError.toFailure]
    split
    · rfl
    · split <;> rfl
  obtain ⟨code, unique, hfault⟩ : ∃ code unique,
      fault.toDriverError = .database fault.message code unique := ⟨_, _, rfl⟩
  rw [toFailure, hfault, hdriver]

theorem begins_unexpected (token : String) : Begins (unexpected token).message "ne" :=
  .append (.append ⟨_, rfl⟩ _) _

/-- No other message begins like that of a refused token.  This is why the token can be
    read off the message. -/
theorem begins_other {fault : StoreFault} (h : ∀ token, fault ≠ unexpected token) :
    ∃ lead, Begins fault.message lead ∧ lead.length = 2 ∧ lead ≠ "ne" := by
  -- two characters are enough to tell the messages from those of an unexpected token
  cases fault with
  | unexpected token => exact absurd rfl (h token)
  | noTable name | noColumn name => exact ⟨"no", .append ⟨_, rfl⟩ _, rfl, by decide⟩
  | noInsertColumn table column =>
      exact ⟨"ta", .append (.append (.append ⟨_, rfl⟩ _) _) _, rfl, by decide⟩
  | duplicateColumn name => exact ⟨"du", .append ⟨_, rfl⟩ _, rfl, by decide⟩
  | tableExists name | severalKeys name | cannotDrop name | cannotAlter name =>
      exact ⟨"ta", .append (.append ⟨_, rfl⟩ _) _, rfl, by decide⟩
  | nameTaken name => exact ⟨"th", .append ⟨_, rfl⟩ _, rfl, by decide⟩
  | generatedNotInteger => exact ⟨"AU", ⟨_, rfl⟩, rfl, by decide⟩
  | reservedName name => exact ⟨"ob", .append ⟨_, rfl⟩ _, rfl, by decide⟩
  | keyMismatch => exact ⟨"da", ⟨_, rfl⟩, rfl, by decide⟩
  | missingValue table column =>
      exact ⟨"NO", .append (.append (.append ⟨_, rfl⟩ _) _) _, rfl, by decide⟩
  | duplicateKey table column =>
      exact ⟨"UN", .append (.append (.append ⟨_, rfl⟩ _) _) _, rfl, by decide⟩
  | keysExhausted => exact ⟨"da", ⟨_, rfl⟩, rfl, by decide⟩
  | malformedTable written => exact ⟨"ma", .append (.append ⟨_, rfl⟩ _) _, rfl, by decide⟩

/-- **THE TOKEN IS TOLD**: no other fault has the message of a refused token.  Both
    sides begin in the way that only such a message begins, and what stands between is
    the token. -/
theorem unexpected_of_message {fault : StoreFault} {token : String}
    (h : fault.message = (unexpected token).message) : fault = unexpected token := by
  by_cases htoken : ∃ w, fault = unexpected w
  · obtain ⟨w, rfl⟩ := htoken
    rw [eq_of_between h]
  · obtain ⟨lead, hlead, hlength, hne⟩ := begins_other fun w hw => htoken ⟨w, hw⟩
    rw [h] at hlead
    exact absurd (hlead.eq_of_length (begins_unexpected token) hlength) hne

/-- So the failure that is handed on tells it as well. -/
theorem unexpected_of_toFailure {fault : StoreFault} {token : String}
    (h : fault.toFailure = (unexpected token).toFailure) : fault = unexpected token := by
  have hmessage := congrArg Failure.reported? h
  rw [reported?_toFailure, reported?_toFailure] at hmessage
  exact unexpected_of_message (Option.some.inj hmessage)

end StoreFault

/-! ## Plain computations -/

/-- No token is refused, whatever else may go wrong. -/
def Plain {α : Type} (x : Except StoreFault α) : Prop := ∀ token, x ≠ .error (.unexpected token)

theorem plain_ok {α : Type} (a : α) : Plain (.ok a : Except StoreFault α) := nofun

theorem plain_error {α : Type} {fault : StoreFault} (h : fault.token? = none) :
    Plain (.error fault : Except StoreFault α) := by
  rintro token ⟨⟩
  cases h

theorem plain_ite {α : Type} {c : Prop} [Decidable c] {x y : Except StoreFault α} (hx : Plain x)
    (hy : Plain y) : Plain (if c then x else y) := by
  split
  · exact hx
  · exact hy

theorem Plain.bind {α β : Type} {x : Except StoreFault α} {f : α → Except StoreFault β}
    (hx : Plain x) (hf : ∀ a, Plain (f a)) : Plain (x >>= f) := by
  intro token h
  cases x with
  | error _ =>
      cases h
      exact hx token rfl
  | ok a => exact hf a token h

namespace Search

variable (t : Table)

theorem plain_column (name : String) : Plain (column t name) := by
  intro token h
  rw [column] at h
  split at h <;> cases h

theorem plain_columns (names : List String) : Plain (columns t names) := by
  induction names with
  | nil => exact plain_ok _
  | cons name names ih => exact (plain_column t name).bind fun _ => ih.bind fun _ => plain_ok _

theorem plain_terms (conditions : List Condition) : Plain (terms t conditions) := by
  have hterm (c : Condition) : Plain (term t c) :=
    (plain_column t c.column).bind fun _ => plain_ok _
  induction conditions with
  | nil => exact plain_ok _
  | cons c conditions ih => exact (hterm c).bind fun _ => ih.bind fun _ => plain_ok _

theorem plain_sortKeys (order : List OrderTerm) : Plain (sortKeys t order) := by
  induction order with
  | nil => exact plain_ok _
  | cons o order ih => exact (plain_column t o.column).bind fun _ => ih.bind fun _ => plain_ok _

end Search

namespace Table

variable (t : Table)

theorem plain_numbered (lastUsed : Int) (cells : Cells) : Plain (t.numbered lastUsed cells) := by
  have hnext (i : Nat) : Plain (t.nextNumber i lastUsed) := by
    rw [nextNumber]
    exact plain_ite (plain_ok _) (plain_ite (plain_error rfl) (plain_ok _))
  rw [numbered]
  split
  · exact plain_ok _
  · split
    · exact (hnext _).bind fun _ => plain_ok _
    · exact plain_ok _
    · exact plain_error rfl

theorem plain_accept (others : List Cells) (cells : Cells) : Plain (t.accept others cells) := by
  rw [accept]
  split
  · exact plain_error rfl
  · split
    · exact plain_ok _
    · split
      · exact plain_error rfl
      · exact plain_ok _

theorem plain_newRow (lastUsed : Int) (entries : List Entry) : Plain (t.newRow lastUsed entries) :=
  (t.plain_numbered lastUsed _).bind fun cells =>
    (t.plain_accept t.rows cells).bind fun _ => plain_ok _

theorem plain_checkNumber (cells : Cells) : Plain (t.checkNumber cells) := by
  rw [checkNumber]
  split
  · exact plain_ok _
  · split
    · exact plain_ok _
    · exact plain_error rfl

theorem plain_updateRows (selected : Cells → Bool) (entries : List Entry) (rows : List Cells) :
    ∀ done, Plain (t.updateRows selected entries done rows) := by
  induction rows with
  | nil => intro done; exact plain_ok _
  | cons cells rows ih =>
      intro done
      rw [updateRows]
      split
      · exact (t.plain_checkNumber _).bind fun _ => (t.plain_accept _ _).bind fun _ => ih _
      · exact ih _

end Table

/-! ## Statements -/

namespace Database

/-- A statement that checks its words and is plain after that.  All statements but those
    that make a table are of this form. -/
def ChecksFirst {α : Type} (x : Except StoreFault α) (words : List Word) : Prop :=
  ∃ rest : Except StoreFault α, x = (Word.check words >>= fun _ => rest) ∧ Plain rest

variable {α : Type} {x : Except StoreFault α} {words : List Word}

theorem ChecksFirst.bind {β : Type} (h : ChecksFirst x words) {f : α → Except StoreFault β}
    (hf : ∀ a, Plain (f a)) : ChecksFirst (x >>= f) words := by
  obtain ⟨rest, rfl, hplain⟩ := h
  exact ⟨rest >>= f, bind_assoc .., hplain.bind hf⟩

/-- **A TOKEN IS REFUSED** because of one of the words. -/
theorem ChecksFirst.exists_refused {token : String} (h : ChecksFirst x words)
    (hx : x = .error (.unexpected token)) : ∃ w ∈ words, w.refusedAt? = some token := by
  obtain ⟨rest, rfl, hplain⟩ := h
  rw [Word.check] at hx
  split at hx
  · rename_i found hfind
    cases hx
    exact List.exists_of_findSome?_eq_some hfind
  · exact absurd hx (hplain token)

/-- **A WORD THAT IS NO NAME** at its place makes the statement fail at some token, whatever the
    database is: at its own, or at that of a word before it. -/
theorem ChecksFirst.error_of_refused {w : Word} (h : ChecksFirst x words) (hw : w ∈ words)
    (hrefused : w.refusedAt? ≠ none) : ∃ token, x = .error (.unexpected token) := by
  obtain ⟨rest, rfl, -⟩ := h
  rw [Word.check]
  cases hfind : words.findSome? Word.refusedAt? with
  | some token => exact ⟨token, rfl⟩
  | none => exact absurd (List.findSome?_eq_none_iff.mp hfind w hw) hrefused

variable (db : Database)

theorem plain_target (name : String) : Plain (db.target name) := by
  intro token h
  rw [target] at h
  split at h <;> cases h

theorem checksFirst_select (s : Select) : ChecksFirst (db.select s) s.words :=
  ⟨_, rfl, (db.plain_target _).bind fun t => (Search.plain_columns t _).bind fun _ =>
    (Search.plain_terms t _).bind fun _ => (Search.plain_sortKeys t _).bind fun _ => plain_ok _⟩

theorem checksFirst_insert (s : Insert) : ChecksFirst (db.insert s) s.words := by
  refine ⟨_, rfl, (db.plain_target _).bind fun t => ?_⟩
  split
  · exact plain_error rfl
  · exact (t.plain_newRow _ _).bind fun _ => plain_ok _

theorem checksFirst_update (s : Update) : ChecksFirst (db.update s) s.words := by
  refine ⟨_, rfl, (db.plain_target _).bind fun t => ?_⟩
  split
  · exact plain_error rfl
  · exact (Search.plain_terms t _).bind fun _ =>
      (t.plain_updateRows _ _ _ _).bind fun _ => plain_ok _

theorem checksFirst_delete (s : Delete) : ChecksFirst (db.delete s) s.words :=
  ⟨_, rfl, (db.plain_target _).bind fun t => (Search.plain_terms t _).bind fun _ => plain_ok _⟩

theorem checksFirst_rename (old new : String) :
    ChecksFirst (db.rename old new) (Statement.renameTable old new).words := by
  refine ⟨_, rfl, ?_⟩
  split
  · exact plain_error rfl
  · exact plain_ite (plain_error rfl) (plain_ite (plain_error rfl)
      (plain_ite (plain_error rfl) (plain_ok _)))

theorem checksFirst_drop (name : String) :
    ChecksFirst (db.drop name) (Statement.dropTable name).words := by
  refine ⟨_, rfl, ?_⟩
  split
  · exact plain_ok _
  · exact plain_ite (plain_error rfl) (plain_ok _)

end Database

end Gridbase
