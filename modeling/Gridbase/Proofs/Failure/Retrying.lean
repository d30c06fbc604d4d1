import Gridbase.Failure.Driver
import Gridbase.Proofs.Text.Digits

/-! # Which driver errors are retried

    A result code is a primary code in its low byte and a detail above it: codes with the low
    byte 5 are the FAMILY of a busy database, those with the low byte 6 the family of a locked
    one.  The driver hands on the decimal text of the whole code.

    The text is compared with the two primary codes, so that a code with a detail is retried
    only for what the message says (`toFailure_of_busyFamily`).  A table that is locked in a
    shared cache has such a code and another message (`toFailure_sharedCache`). -/

namespace Gridbase

namespace Text

/-- A search finds the needle as a part of the text. -/
theorem occursIn_iff_infix {needle : List Char} (cs : List Char) :
    occursIn needle cs = true ↔ needle <:+: cs := by
  induction cs with
  | nil => rw [occursIn, List.isEmpty_iff, List.infix_nil]
  | cons c cs ih =>
      rw [occursIn, Bool.or_eq_true, ih, List.isPrefixOf_iff_prefix, List.infix_cons_iff]

/-- The decimal text of a number determines the number. -/
theorem ofNat_inj {m n : Nat} (h : ofNat m = ofNat n) : m = n := by
  have hdigits : digits m = digits n := String.ofList_injective h
  rw [← ofDigits_digits m, hdigits, ofDigits_digits n]

end Text

namespace DriverError

/-- The code belongs to the family of a busy or to that of a locked database.  An
    extended code has the primary one in its lowest byte. -/
def InBusyFamily (code : Nat) : Prop := code % 256 = 5 ∨ code % 256 = 6

/-- The message says, in letters of either case, that the database is locked or busy.  A
    message about a table does not. -/
def SaysBusy (message : String) : Prop :=
  "database is locked".toList <:+: Text.lower message.toList
    ∨ "database is busy".toList <:+: Text.lower message.toList

/-- The decimal text of a code is one of the primary codes only for these codes. -/
theorem contains_transientCodes (code : Nat) :
    transientCodes.contains (Text.ofNat code) = true ↔ code = 5 ∨ code = 6 := by
  have hfive : Text.ofNat code = "5" ↔ code = 5 :=
    ⟨fun h => Text.ofNat_inj (n := 5) h, fun h => h ▸ rfl⟩
  have hsix : Text.ofNat code = "6" ↔ code = 6 :=
    ⟨fun h => Text.ofNat_inj (n := 6) h, fun h => h ▸ rfl⟩
  rw [transientCodes, List.contains_iff_mem, List.mem_cons, List.mem_singleton, hfive, hsix]

/-- An error is busy for a primary code and for what its message says. -/
theorem isBusy_iff (message : String) (code : Nat) :
    isBusy message (some (Text.ofNat code)) = true ↔ (code = 5 ∨ code = 6) ∨ SaysBusy message := by
  rw [isBusy, Bool.or_eq_true, Bool.or_eq_true, Option.any_some, contains_transientCodes,
    Text.occursIn_iff_infix, Text.occursIn_iff_infix, or_assoc]
  rfl

/-- A database error that names no missing table, nothing that exists already and no broken
    uniqueness is a failure of the storage with the message as it is. -/
theorem toFailure_of_unnamed {message : String} {code : Option String}
    (htable : namesMissingTable message = false) (hconflict : namesConflict message = false) :
    (DriverError.database message code false).toFailure
      = .storage message (isBusy message code) := by
  rw [toFailure, htable, hconflict]
  rfl

/-- **A BUSY DATABASE IS RETRIED** for a primary code and for a message that says so: an error
    of either family, which names no missing table, nothing that exists already and no broken
    uniqueness, is a failure of the storage with the message as it is, and it is transient
    exactly if the code carries no detail or the message says that the database is busy. -/
theorem toFailure_of_busyFamily {code : Nat} {message : String} {unique : Bool}
    (hfamily : InBusyFamily code) (hunique : unique = true → code % 256 = 19)
    (htable : namesMissingTable message = false) (hconflict : namesConflict message = false) :
    ∃ transient,
      (DriverError.database message (some (Text.ofNat code)) unique).toFailure
          = .storage message transient
        ∧ (transient = true ↔ code < 256 ∨ SaysBusy message) := by
  -- a broken uniqueness has a code of the family of constraints
  have hplain : unique = false := by
    rw [Bool.eq_false_iff]
    intro h
    have := hunique h
    rcases hfamily with hbusy | hlocked <;> omega
  have hprimary : code = 5 ∨ code = 6 ↔ code < 256 := by
    rcases hfamily with hbusy | hlocked <;> omega
  refine ⟨isBusy message (some (Text.ofNat code)), ?_, ?_⟩
  · rw [hplain]
    exact toFailure_of_unnamed htable hconflict
  · rw [isBusy_iff, hprimary]

/-- A table that is locked in a shared cache, code 262, is not retried.  The code is
    extended, and its message speaks of a table, so neither sign is seen. -/
theorem toFailure_sharedCache :
    InBusyFamily 262 ∧ namesMissingTable "database table is locked: people" = false
      ∧ namesConflict "database table is locked: people" = false
      ∧ (DriverError.database "database table is locked: people" (some "262") false).toFailure
        = .storage "database table is locked: people" false := by
  have hfamily : InBusyFamily 262 := Or.inr rfl
  have htable : namesMissingTable "database table is locked: people" = false := by decide +kernel
  have hconflict : namesConflict "database table is locked: people" = false := by decide +kernel
  have hsilent : ¬ SaysBusy "database table is locked: people" := by
    unfold SaysBusy
    decide +kernel
  have hcode : Text.ofNat 262 = "262" := by decide +kernel
  have hunique : false = true → 262 % 256 = 19 := fun h => nomatch h
  obtain ⟨transient, hfailure, htransient⟩ :=
    toFailure_of_busyFamily hfamily hunique htable hconflict
  -- neither the code nor the message makes it transient
  have hfatal : transient = false := by
    rw [Bool.eq_false_iff]
    intro h
    exact (htransient.mp h).elim (by decide) hsilent
  rw [hcode, hfatal] at hfailure
  exact ⟨hfamily, htable, hconflict, hfailure⟩

end DriverError

end Gridbase
