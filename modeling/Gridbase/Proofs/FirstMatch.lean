import Mathlib.Data.List.Basic

/-! # First matches

    Entries that are kept in a list are addressed by a test: a write changes the FIRST match, or
    adds an entry at the end if there is none (`putFirst`).  Rows, cell styles and column styles are
    written in this way.

    A search for what was written finds it (`find?_putFirst`), a search for anything else finds what
    it found before (`find?_putFirst_of_apart`), and no entry but the first match is changed or moved
    (`getElem?_putFirst`). -/

namespace Gridbase

/-- The list with its first match changed, or with a new item at the end if nothing
    matches.  The entries of a row and the styles of cells and columns are written in
    this way. -/
def putFirst {α : Type} (p : α → Bool) (f : α → α) (a : α) : List α → List α
  | [] => [a]
  | b :: items => if p b then f b :: items else b :: putFirst p f a items

variable {α : Type} {p : α → Bool} {f : α → α} {a : α}

/-- **WHAT WAS WRITTEN IS FOUND**: the part `g` of the first match that every write
    makes `v`.  It does not matter whether the item was there before. -/
theorem find?_putFirst {β : Type} {g : α → β} {v : β} (hf : ∀ b, p b = true → p (f b) = true)
    (ha : p a = true) (hfv : ∀ b, g (f b) = v) (hav : g a = v) (items : List α) :
    ((putFirst p f a items).find? p).map g = some v := by
  induction items with
  | nil => rw [putFirst, List.find?_cons_of_pos ha, Option.map_some, hav]
  | cons b items ih =>
      rw [putFirst]
      cases hb : p b with
      | true => rw [if_pos rfl, List.find?_cons_of_pos (hf b hb), Option.map_some, hfv]
      | false => rw [if_neg Bool.false_ne_true, List.find?_cons_of_neg (by simp [hb]), ih]

/-- A search that no match answers does not see the write. -/
theorem find?_putFirst_of_apart {q : α → Bool} (hp : ∀ b, p b = true → q b = false)
    (hf : ∀ b, p b = true → q (f b) = false) (ha : q a = false) (items : List α) :
    (putFirst p f a items).find? q = items.find? q := by
  induction items with
  | nil => exact List.find?_cons_of_neg (by simp [ha])
  | cons b items ih =>
      rw [putFirst]
      cases hb : p b with
      | true =>
          rw [if_pos rfl, List.find?_cons_of_neg (by simp [hf b hb]),
            List.find?_cons_of_neg (by simp [hp b hb])]
      | false =>
          rw [if_neg Bool.false_ne_true, List.find?_cons, List.find?_cons, ih]

/-- **OTHER ITEMS STAY IN THEIR PLACES**, and none comes to them.  Only items that do
    not match are followed, so growth at the end needs no exception. -/
theorem getElem?_putFirst (hf : ∀ b, p b = true → p (f b) = true) (ha : p a = true)
    {c : α} (hc : p c = false) (items : List α) :
    ∀ i : Nat, (putFirst p f a items)[i]? = some c ↔ items[i]? = some c := by
  -- an item that is found by the predicate is never the one asked for
  have hne : ∀ {b : α}, p b = true → (some b = some c ↔ False) := by
    intro b hb
    refine ⟨fun h => ?_, False.elim⟩
    rw [Option.some.inj h, hc] at hb
    exact Bool.false_ne_true hb
  induction items with
  | nil =>
      intro i
      cases i with
      | zero => exact (hne ha).trans (by simp)
      | succ i => exact Iff.rfl
  | cons b items ih =>
      intro i
      rw [putFirst]
      cases hb : p b with
      | true =>
          cases i with
          | zero => exact (hne (hf b hb)).trans (hne hb).symm
          | succ i => exact Iff.rfl
      | false =>
          cases i with
          | zero => exact Iff.rfl
          | succ i => exact ih i

/-- What a write leaves alone in a match is the same in the whole list, but for the new item. -/
theorem map_putFirst {β : Type} {g : α → β} (hg : ∀ b, p b = true → g (f b) = g b)
    (items : List α) :
    (putFirst p f a items).map g
      = if items.any p then items.map g else items.map g ++ [g a] := by
  induction items with
  | nil => rfl
  | cons b items ih =>
      rw [putFirst, List.any_cons]
      cases hb : p b with
      | true =>
          rw [if_pos rfl, Bool.true_or, if_pos rfl, List.map_cons, hg b hb]
          rfl
      | false =>
          rw [if_neg Bool.false_ne_true, Bool.false_or, List.map_cons, ih]
          split <;> rfl

end Gridbase
