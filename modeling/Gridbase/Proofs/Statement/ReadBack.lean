import Gridbase.Proofs.Statement.Placeholders

/-! # Items that are read back from their texts

    An item of a statement is READ BACK from its text: where the text goes on with
    anything that ends a word, no other item has a text that begins alike.  This
    holds of names, since they have body characters only, and it passes from the
    items to lists of them.

    * `readBack_name`: names are read back.
    * `ReadBack.joined`: so are lists with commas between the items.
    * `ReadBack.bound`: so are items with placeholders after them. -/

namespace Gridbase

open Gridbase.Text

/-! ## Items that are read back -/

/-- The items with a property are read back from their texts: what goes on with a text that
    ends a word begins with the text of one item only. -/
def ReadBack {α : Type} (P : α → Prop) (text : α → String) : Prop :=
  ∀ ⦃x y : α⦄, P x → P y → ∀ ⦃r s : List Char⦄, EndsToken r → EndsToken s →
    (text x).toList ++ r = (text y).toList ++ s → x = y ∧ r = s

/-- The text ends a list of words: no word and no comma goes on, so what was read so far
    is all of it. -/
def EndsList (cs : List Char) : Prop :=
  ∃ c rest, cs = c :: rest ∧ Identifier.isBody c = false ∧ c ≠ ','

theorem EndsList.endsToken {cs : List Char} (h : EndsList cs) : EndsToken cs := by
  obtain ⟨c, rest, hcs, hc, -⟩ := h
  exact ⟨c, rest, hcs, hc⟩

/-- **NAMES ARE READ BACK.**  A name ends where no letter, digit or underscore follows.
    -/
theorem readBack_name (d : Dialect) : ReadBack (fun name => d.isValidName name = true) id := by
  intro x y hx hy r s hr hs h
  have hname : x.toList = y.toList := by
    rw [← takeWhile_isBody (fun _ hc => Identifier.isBody_of_mem hx hc) hr,
      ← takeWhile_isBody (fun _ hc => Identifier.isBody_of_mem hy hc) hs]
    exact congrArg _ h
  refine ⟨String.toList_inj.mp hname, ?_⟩
  dsimp only [id] at h
  rw [hname] at h
  exact List.append_cancel_left h

theorem endsToken_blank (rest : List Char) : EndsToken (" ".toList ++ rest) := ⟨' ', rest, rfl, rfl⟩

theorem endsToken_placeholder (d : Dialect) (i : Nat) (rest : List Char) :
    EndsToken ((d.placeholder i).toList ++ rest) := by
  obtain ⟨body, hbody, -⟩ := d.toList_placeholder i
  exact ⟨d.placeholderMark, body ++ rest, by rw [hbody, List.cons_append],
    d.isBody_placeholderMark⟩

/-! ## Lists of items -/

namespace ReadBack

variable {α : Type} {P : α → Prop} {text : α → String}

/-- What follows an item is the next comma or the end of the list. -/
theorem endsToken_afterCommas (xs : List α) {r : List Char} (hr : EndsList r) :
    EndsToken ((xs.flatMap fun x => ", ".toList ++ (text x).toList) ++ r) := by
  cases xs with
  | nil => exact hr.endsToken
  | cons x xs => exact ⟨',', _, rfl, rfl⟩

/-- Items that each follow a comma are read back.  The comma tells that there is one
    more; without it the text ends the list. -/
theorem afterCommas (h : ReadBack P text) :
    ∀ {xs ys : List α}, (∀ x ∈ xs, P x) → (∀ y ∈ ys, P y) →
      ∀ {r s : List Char}, EndsList r → EndsList s →
        (xs.flatMap fun x => ", ".toList ++ (text x).toList) ++ r
            = (ys.flatMap fun y => ", ".toList ++ (text y).toList) ++ s →
          xs = ys ∧ r = s := by
  intro xs
  -- induction on one list, with the other and both rests left open
  induction xs with
  | nil =>
      intro ys _ _ r s hr _ heq
      cases ys with
      | nil => exact ⟨rfl, heq⟩
      | cons y ys =>
          obtain ⟨c, rest, rfl, -, hc⟩ := hr
          exact absurd (List.cons.inj heq).1 hc
  | cons x xs ih =>
      intro ys hx hy r s hr hs heq
      cases ys with
      | nil =>
          obtain ⟨c, rest, rfl, -, hc⟩ := hs
          exact absurd (List.cons.inj heq).1.symm hc
      | cons y ys =>
          rw [List.flatMap_cons, List.flatMap_cons, List.append_assoc, List.append_assoc,
            List.append_assoc, List.append_assoc] at heq
          obtain ⟨rfl, hrest⟩ := h (hx x (List.mem_cons_self ..)) (hy y (List.mem_cons_self ..))
            (endsToken_afterCommas xs hr) (endsToken_afterCommas ys hs)
            (List.append_cancel_left heq)
          obtain ⟨rfl, hrs⟩ := ih (fun z hz => hx z (List.mem_cons_of_mem _ hz))
            (fun z hz => hy z (List.mem_cons_of_mem _ hz)) hr hs hrest
          exact ⟨rfl, hrs⟩

/-- **LISTS ARE READ BACK** from their texts with commas between the items.  By
    induction on one list: its first item is read back, and the rest of both texts
    begins in the same way. -/
theorem joined (h : ReadBack P text) {xs ys : List α} (hxs : xs ≠ []) (hys : ys ≠ [])
    (hx : ∀ x ∈ xs, P x) (hy : ∀ y ∈ ys, P y) {r s : List Char} (hr : EndsList r)
    (hs : EndsList s)
    (heq : (joinWith ", " (xs.map text)).toList ++ r
      = (joinWith ", " (ys.map text)).toList ++ s) : xs = ys ∧ r = s := by
  -- the first items have no comma before them
  cases xs with
  | nil => exact absurd rfl hxs
  | cons x xs =>
      cases ys with
      | nil => exact absurd rfl hys
      | cons y ys =>
          rw [List.map_cons, List.map_cons, toList_joinWith_cons, toList_joinWith_cons,
            List.flatMap_map, List.flatMap_map, List.append_assoc, List.append_assoc] at heq
          obtain ⟨rfl, hrest⟩ := h (hx x (List.mem_cons_self ..)) (hy y (List.mem_cons_self ..))
            (endsToken_afterCommas xs hr) (endsToken_afterCommas ys hs) heq
          obtain ⟨rfl, hrs⟩ := h.afterCommas (fun z hz => hx z (List.mem_cons_of_mem _ hz))
            (fun z hz => hy z (List.mem_cons_of_mem _ hz)) hr hs hrest
          exact ⟨rfl, hrs⟩

/-- Items behind words of their own are read back. -/
theorem behind (h : ReadBack P text) (lead : String) : ReadBack P fun x => lead ++ text x := by
  intro x y hx hy r s hr hs heq
  rw [String.toList_append, String.toList_append, List.append_assoc, List.append_assoc] at heq
  exact h hx hy hr hs (List.append_cancel_left heq)

/-- Items before a text that ends a word are read back. -/
theorem before (h : ReadBack P text) {tail : String} (htail : EndsToken tail.toList) :
    ReadBack P fun x => text x ++ tail := by
  intro x y hx hy r s _ _ heq
  obtain ⟨c, cs, hcs, hc⟩ := htail
  rw [String.toList_append, String.toList_append, List.append_assoc, List.append_assoc] at heq
  obtain ⟨rfl, hrest⟩ := h hx hy ⟨c, cs ++ r, by rw [hcs, List.cons_append], hc⟩
    ⟨c, cs ++ s, by rw [hcs, List.cons_append], hc⟩ heq
  exact ⟨rfl, List.append_cancel_left hrest⟩

end ReadBack

/-! ## Items with placeholders -/

/-- The text of items that each have a placeholder after them, from a number on.  The
    values are not in it. -/
def boundText {α : Type} (d : Dialect) (text : α → String) : Nat → List α → String
  | _, [] => ""
  | i, x :: xs => text x ++ d.placeholder i ++ boundText d text (i + 1) xs

/-- **ITEMS WITH PLACEHOLDERS ARE READ BACK**, if the text after them begins with none.
    The numbers of the placeholders are those of the places, so both texts count alike.
    -/
theorem ReadBack.bound {α : Type} {P : α → Prop} {text : α → String} (h : ReadBack P text)
    (d : Dialect) {r s : List Char} (hr : ∀ x, ¬ (text x).toList <+: r)
    (hs : ∀ x, ¬ (text x).toList <+: s) :
    ∀ {xs ys : List α}, (∀ x ∈ xs, P x) → (∀ y ∈ ys, P y) → ∀ i,
      (boundText d text i xs).toList ++ r = (boundText d text i ys).toList ++ s →
        xs = ys ∧ r = s := by
  have hcons (i : Nat) (x : α) (xs : List α) (t : List Char) :
      (boundText d text i (x :: xs)).toList ++ t
        = (text x).toList
          ++ ((d.placeholder i).toList ++ ((boundText d text (i + 1) xs).toList ++ t)) := by
    simp only [boundText, String.toList_append, List.append_assoc]
  intro xs
  induction xs with
  | nil =>
      intro ys _ _ i heq
      cases ys with
      | nil => exact ⟨rfl, heq⟩
      | cons y ys =>
          rw [hcons] at heq
          exact absurd ⟨_, heq.symm⟩ (hr y)
  | cons x xs ih =>
      intro ys hx hy i heq
      cases ys with
      | nil =>
          rw [hcons] at heq
          exact absurd ⟨_, heq⟩ (hs x)
      | cons y ys =>
          rw [hcons, hcons] at heq
          obtain ⟨rfl, hrest⟩ := h (hx x (List.mem_cons_self ..)) (hy y (List.mem_cons_self ..))
            (endsToken_placeholder d i _) (endsToken_placeholder d i _) heq
          -- both items have the placeholder of one number
          obtain ⟨rfl, hrs⟩ := ih (fun z hz => hx z (List.mem_cons_of_mem _ hz))
            (fun z hz => hy z (List.mem_cons_of_mem _ hz)) (i + 1) (List.append_cancel_left hrest)
          exact ⟨rfl, hrs⟩

/-! ## Lists of names -/

/-- A list of names begins with a body character. -/
theorem exists_isBody_joinWith {d : Dialect} {names : List String} (hne : names ≠ [])
    (h : ∀ name ∈ names, d.isValidName name = true) :
    ∃ c rest, (joinWith ", " names).toList = c :: rest ∧ Identifier.isBody c = true := by
  cases names with
  | nil => exact absurd rfl hne
  | cons name names =>
      have hname := h name (List.mem_cons_self ..)
      cases hchars : name.toList with
      | nil => exact absurd hchars (Identifier.toList_ne_nil hname)
      | cons c cs =>
          refine ⟨c, _, by rw [toList_joinWith_cons, hchars]; rfl, ?_⟩
          exact Identifier.isBody_of_mem hname (by rw [hchars]; exact List.mem_cons_self ..)

/-- Lists of names are read back. -/
theorem names_append_inj {d : Dialect} {xs ys : List String} (hxs : xs ≠ []) (hys : ys ≠ [])
    (hx : ∀ x ∈ xs, d.isValidName x = true) (hy : ∀ y ∈ ys, d.isValidName y = true)
    {r r' : List Char} (hr : EndsList r) (hr' : EndsList r')
    (h : (joinWith ", " xs).toList ++ r = (joinWith ", " ys).toList ++ r') :
    xs = ys ∧ r = r' := by
  rw [← List.map_id xs, ← List.map_id ys] at h
  exact (readBack_name d).joined hxs hys hx hy hr hr' h

end Gridbase
