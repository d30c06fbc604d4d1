import Gridbase.Text.Digits
import Gridbase.Text.Quoted

/-! # Texts — trimming, search and digits

    The laws of the text functions that the readers of statements rest on.

    * Padding with blanks is undone by `trim`.
    * A character that the needle lacks SEPARATES a search: an occurrence lies
      wholly before it or wholly after it.
    * The digits of a number are read back as that number. -/

namespace Gridbase.Text

/-! ## Equality of names -/

/-- Folding is an equality: every name is its own. -/
@[simp] theorem sameName_refl (a : String) : sameName a a = true := by
  simp [sameName, sameFolded]

/-- Equality of names is equality of their lower case. -/
theorem sameName_iff {a b : String} :
    sameName a b = true ↔ lower a.toList = lower b.toList := by
  simp [sameName, sameFolded]

theorem sameName_comm (a b : String) : sameName a b = sameName b a := by
  rw [Bool.eq_iff_iff, sameName_iff, sameName_iff]
  exact eq_comm

/-- Equal names are equal to the same names. -/
theorem sameName_congr {a b : String} (h : sameName a b = true) (c : String) :
    sameName a c = sameName b c := by
  rw [Bool.eq_iff_iff, sameName_iff, sameName_iff, sameName_iff.mp h]

/-- Names that are equal to one name are equal to each other. -/
theorem sameName_trans {a b c : String} (h : sameName a b = true) (h' : sameName b c = true) :
    sameName a c = true := by
  rw [sameName_congr h]
  exact h'

/-- **A NAME IS FOUND** in the only item that has it, if all names differ.  Names are
    compared without their case, and the key may be in any spelling. -/
theorem find?_of_distinct {α : Type} {name : α → String} {items : List α}
    (h : items.Pairwise fun a b => sameName (name a) (name b) = false) {a : α} (ha : a ∈ items)
    {key : String} (hkey : sameName (name a) key = true) :
    items.find? (fun x => sameName (name x) key) = some a := by
  induction items with
  | nil => exact nomatch ha
  | cons b rest ih =>
      obtain ⟨hb, hrest⟩ := List.pairwise_cons.mp h
      rcases List.mem_cons.mp ha with rfl | ha
      · exact List.find?_cons_of_pos hkey
      · have hother : ¬ sameName (name b) key = true := by
          intro hsame
          rw [sameName_comm] at hkey
          exact Bool.false_ne_true ((hb a ha).symm.trans (sameName_trans hsame hkey))
        exact Eq.trans (List.find?_cons_of_neg (by exact hother)) (ih hrest ha)

/-- Items of which no two have a property have it once at most. -/
theorem countP_le_one {α : Type} {p : α → Bool} {items : List α}
    (h : items.Pairwise fun a b => ¬ (p a = true ∧ p b = true)) : items.countP p ≤ 1 := by
  induction items with
  | nil => exact Nat.zero_le 1
  | cons a items ih =>
      obtain ⟨ha, hitems⟩ := List.pairwise_cons.mp h
      cases hp : p a with
      | false =>
          rw [List.countP_cons_of_neg (by simp [hp])]
          exact ih hitems
      | true =>
          have hnone : items.countP p = 0 :=
            List.countP_eq_zero.mpr fun b hb hpb => ha b hb ⟨hp, hpb⟩
          exact Nat.le_of_eq (by rw [List.countP_cons_of_pos hp, hnone])

/-- A name is the name of one item at most, if all names differ. -/
theorem countP_sameName_le_one {α : Type} {name : α → String} {items : List α}
    (h : items.Pairwise fun a b => sameName (name a) (name b) = false) (key : String) :
    items.countP (fun x => sameName (name x) key) ≤ 1 := by
  refine countP_le_one (h.imp fun {a b} hapart hboth => ?_)
  have hsame := sameName_trans hboth.1 ((sameName_comm key (name b)).trans hboth.2)
  exact Bool.false_ne_true (hapart.symm.trans hsame)

/-! ## Trimming -/

/-- Only blanks. -/
def Blank (cs : List Char) : Prop := ∀ c ∈ cs, isBlank c = true

-- The instance over lists is given by name: others, over all characters, would do too.
instance (cs : List Char) : Decidable (Blank cs) := List.decidableBAll _ cs

theorem blank_nil : Blank [] := fun _ h => nomatch h

/-- The text begins and ends with characters that are not blank, so there is at least
    one and trimming changes nothing. -/
structure Solid (cs : List Char) : Prop where
  head : ∃ c rest, cs = c :: rest ∧ isBlank c = false
  last : ∃ init d, cs = init ++ [d] ∧ isBlank d = false

/-- **PADDING IS UNDONE**: blanks around a solid text are trimmed away. -/
theorem trim_padded {pre core post : List Char} (hpre : Blank pre) (hpost : Blank post)
    (hcore : Solid core) : trim (pre ++ core ++ post) = core := by
  have hstart : trimStart (pre ++ core ++ post) = core ++ post := by
    obtain ⟨c, rest, rfl, hc⟩ := hcore.head
    rw [trimStart, List.append_assoc, List.dropWhile_append_of_pos hpre, List.cons_append,
      List.dropWhile_cons_of_neg (by simp [hc])]
  -- the end is the start of the reversed text
  obtain ⟨init, d, rfl, hd⟩ := hcore.last
  rw [trim, hstart, trimEnd, List.reverse_append,
    List.dropWhile_append_of_pos (fun c hc => hpost c (List.mem_reverse.mp hc)),
    List.reverse_append,
    List.reverse_singleton, List.singleton_append, List.dropWhile_cons_of_neg (by simp [hd]),
    List.reverse_cons, List.reverse_reverse]

/-- A solid text is trimmed. -/
theorem trim_solid {cs : List Char} (h : Solid cs) : trim cs = cs := by
  simpa using trim_padded blank_nil blank_nil h

/-- A text of other characters only is solid. -/
theorem solid_of_no_blank {cs : List Char} (hne : cs ≠ [])
    (h : ∀ c ∈ cs, isBlank c = false) : Solid cs := by
  refine ⟨?_, ?_⟩
  · cases cs with
    | nil => exact absurd rfl hne
    | cons c rest => exact ⟨c, rest, rfl, h c (List.mem_cons_self ..)⟩
  · exact ⟨cs.dropLast, cs.getLast hne, (List.dropLast_concat_getLast hne).symm,
      h _ (List.getLast_mem hne)⟩

/-! ## Case -/

@[simp] theorem upper_append (a b : List Char) : upper (a ++ b) = upper a ++ upper b :=
  List.map_append

@[simp] theorem upper_cons (c : Char) (cs : List Char) : upper (c :: cs) = c.toUpper :: upper cs :=
  rfl

@[simp] theorem upper_nil : upper [] = [] := rfl

/-- Only the 26 lower case letters have another upper case. -/
theorem toUpper_eq_or_letter (c : Char) :
    c.toUpper = c ∨ ∃ k < 123, 97 ≤ k ∧ c = Char.ofNat k := by
  by_cases h : 'a'.val ≤ c.val ∧ c.val ≤ 'z'.val
  · have hrange : 97 ≤ c.toNat ∧ c.toNat ≤ 122 := by
      simpa [UInt32.le_iff_toNat_le] using h
    exact Or.inr ⟨c.toNat, by omega, hrange.1, (Char.ofNat_toNat c).symm⟩
  · exact Or.inl (dif_neg h)

/-- No other character becomes a mark that is no letter. -/
theorem toUpper_ne {mark : Char} (hmark : ∀ k < 123, 97 ≤ k → (Char.ofNat k).toUpper ≠ mark)
    {c : Char} (hc : c ≠ mark) : c.toUpper ≠ mark := by
  rcases toUpper_eq_or_letter c with hsame | ⟨k, hk, hlow, rfl⟩
  · rw [hsame]
    exact hc
  · exact hmark k hk hlow

theorem toLower_toUpper (c : Char) : c.toUpper.toLower = c.toLower := by
  have hletters : ∀ k < 123, 97 ≤ k →
      (Char.ofNat k).toUpper.toLower = (Char.ofNat k).toLower := by decide
  rcases toUpper_eq_or_letter c with hsame | ⟨k, hk, hlow, rfl⟩
  · rw [hsame]
  · exact hletters k hk hlow

/-- Upper case is undone by lower case. -/
theorem lower_upper (cs : List Char) : lower (upper cs) = lower cs := by
  rw [lower, upper, List.map_map]
  exact List.map_congr_left fun c _ => toLower_toUpper c

/-- Only the 26 upper case letters have another lower case. -/
theorem toLower_eq_or_letter (c : Char) :
    c.toLower = c ∨ ∃ k < 91, 65 ≤ k ∧ c = Char.ofNat k := by
  by_cases h : 'A'.val ≤ c.val ∧ c.val ≤ 'Z'.val
  · have hrange : 65 ≤ c.toNat ∧ c.toNat ≤ 90 := by
      simpa [UInt32.le_iff_toNat_le] using h
    exact Or.inr ⟨c.toNat, by omega, hrange.1, (Char.ofNat_toNat c).symm⟩
  · exact Or.inl (dif_neg h)

theorem toUpper_toLower (c : Char) : c.toLower.toUpper = c.toUpper := by
  have hletters : ∀ k < 91, 65 ≤ k →
      (Char.ofNat k).toLower.toUpper = (Char.ofNat k).toUpper := by decide
  rcases toLower_eq_or_letter c with hsame | ⟨k, hk, hlow, rfl⟩
  · rw [hsame]
  · exact hletters k hk hlow

/-- Lower case is undone by upper case. -/
theorem upper_lower (cs : List Char) : upper (lower cs) = upper cs := by
  rw [lower, upper, List.map_map]
  exact List.map_congr_left fun c _ => toUpper_toLower c

/-! ## Joining -/

/-- A joined text of several strings begins with the first of them. -/
theorem joinWith_cons (sep s : String) {rest : List String} (h : rest ≠ []) :
    joinWith sep (s :: rest) = s ++ sep ++ joinWith sep rest := by
  cases rest with
  | nil => exact absurd rfl h
  | cons t rest => rfl

/-- A joined text of several strings ends with the last of them. -/
theorem joinWith_concat (sep : String) {items : List String} (h : items ≠ []) (s : String) :
    joinWith sep (items ++ [s]) = joinWith sep items ++ sep ++ s := by
  induction items with
  | nil => exact absurd rfl h
  | cons t rest ih =>
      cases rest with
      | nil => rfl
      | cons u rest =>
          rw [List.cons_append, joinWith_cons sep t (by simp), ih (by simp),
            joinWith_cons sep t (by simp)]
          simp only [String.append_assoc]

/-- Joining is putting the separator between the items. -/
theorem joinWith_eq_intercalate (sep : String) (items : List String) :
    joinWith sep items = sep.intercalate items := by
  induction items with
  | nil => rfl
  | cons s rest ih =>
      cases rest with
      | nil => exact String.intercalate_singleton.symm
      | cons t rest => rw [joinWith, ih, String.intercalate_cons_cons]

/-- The characters of a joined text. -/
theorem toList_joinWith (sep : String) (items : List String) :
    (joinWith sep items).toList = sep.toList.intercalate (items.map String.toList) := by
  induction items with
  | nil => rfl
  | cons s rest ih =>
      cases rest with
      | nil => simp [joinWith]
      | cons t rest =>
          rw [joinWith_cons sep s (by simp), String.toList_append, String.toList_append, ih]
          simp [List.intercalate_cons_cons]

/-- A joined list is its first item and then the others, each after the separator. -/
theorem toList_joinWith_cons (sep s : String) (rest : List String) :
    (joinWith sep (s :: rest)).toList
      = s.toList ++ rest.flatMap fun t => sep.toList ++ t.toList := by
  induction rest generalizing s with
  | nil => rw [joinWith, List.flatMap_nil, List.append_nil]
  | cons t rest ih =>
      rw [joinWith, String.toList_append, String.toList_append, ih, List.flatMap_cons,
        List.append_assoc, List.append_assoc]

/-! ## Splitting -/

/-- There is at least one piece. -/
theorem splitAt_ne_nil (sep : Char) (cs : List Char) : splitAt sep cs ≠ [] := by
  cases cs with
  | nil => simp [splitAt]
  | cons c cs =>
      rw [splitAt]
      split
      · simp
      · split <;> simp

/-- A text without the separator is one piece. -/
theorem splitAt_of_not_mem {sep : Char} :
    ∀ {cs : List Char}, sep ∉ cs → splitAt sep cs = [cs] := by
  intro cs
  induction cs with
  | nil => intro _; rfl
  | cons c cs ih =>
      intro h
      have hc : c ≠ sep := fun hcs => h (by simp [hcs])
      rw [splitAt, ih fun hm => h (List.mem_cons_of_mem _ hm)]
      show (if c = sep then [] :: cs :: [] else (c :: cs) :: []) = [c :: cs]
      rw [if_neg hc]

/-- The first piece ends at the first separator. -/
theorem splitAt_append_cons {sep : Char} {a : List Char} (h : sep ∉ a) (b : List Char) :
    splitAt sep (a ++ sep :: b) = a :: splitAt sep b := by
  induction a with
  | nil =>
      rw [List.nil_append, splitAt]
      cases hb : splitAt sep b with
      | nil => exact absurd hb (splitAt_ne_nil sep b)
      | cons piece rest => exact if_pos rfl
  | cons c a ih =>
      have hc : c ≠ sep := fun hcs => h (by simp [hcs])
      rw [List.cons_append, splitAt, ih fun hm => h (List.mem_cons_of_mem _ hm)]
      exact if_neg hc

/-! ## Search -/

/-- A prefix is decided before a character that it lacks. -/
theorem isPrefixOf_append_cons {c : Char} (b : List Char) :
    ∀ (needle a : List Char), c ∉ needle →
      needle.isPrefixOf (a ++ c :: b) = needle.isPrefixOf a := by
  intro needle
  induction needle with
  | nil => intro a _; rw [List.isPrefixOf_nil_left, List.isPrefixOf_nil_left]
  | cons x needle ih =>
      intro a h
      have hx : x ≠ c := fun hxc => h (by simp [hxc])
      cases a with
      | nil => simp [List.isPrefixOf, hx]
      | cons y a =>
          rw [List.cons_append, List.isPrefixOf_cons_cons, List.isPrefixOf_cons_cons,
            ih a (fun hc => h (List.mem_cons_of_mem _ hc))]

/-- The empty text has no occurrence of a needle with characters. -/
theorem occursIn_nil {needle : List Char} (h : needle ≠ []) : occursIn needle [] = false := by
  rw [occursIn]
  simpa using h

/-- **SEPARATORS**: around a character that the needle lacks, an occurrence lies
    on one side. -/
theorem occursIn_append_cons {needle : List Char} {c : Char} (h : c ∉ needle)
    (a b : List Char) :
    occursIn needle (a ++ c :: b) = (occursIn needle a || occursIn needle b) := by
  induction a with
  | nil =>
      -- no occurrence begins at `c`, which is not the first character of the needle
      cases needle with
      | nil => cases b <;> rfl
      | cons x needle =>
          have hx : x ≠ c := fun hxc => h (by simp [hxc])
          simp [occursIn, List.isPrefixOf, hx]
  | cons y a ih =>
      rw [List.cons_append, occursIn, occursIn, ih, ← List.cons_append,
        isPrefixOf_append_cons b needle (y :: a) h, Bool.or_assoc]

/-- A text that lacks a character of the needle lacks the needle. -/
theorem occursIn_eq_false {needle : List Char} {c : Char} (hc : c ∈ needle) :
    ∀ cs : List Char, c ∉ cs → occursIn needle cs = false := by
  have hprefix : ∀ cs : List Char, c ∉ cs → needle.isPrefixOf cs = false := by
    intro cs hcs
    rw [Bool.eq_false_iff]
    intro hp
    exact hcs ((List.isPrefixOf_iff_prefix.mp hp).subset hc)
  intro cs
  induction cs with
  | nil => intro _; exact occursIn_nil (List.ne_nil_of_mem hc)
  | cons y cs ih =>
      intro h
      rw [occursIn, hprefix _ h, ih (fun hm => h (List.mem_cons_of_mem _ hm))]
      rfl

/-- A character that the needle lacks is passed over. -/
theorem occursIn_cons_of_not_mem {needle : List Char} {c : Char} (h : c ∉ needle)
    (hne : needle ≠ []) (b : List Char) : occursIn needle (c :: b) = occursIn needle b := by
  rw [← List.nil_append (c :: b), occursIn_append_cons h, occursIn_nil hne, Bool.false_or]

/-! ## Quotes -/

/-- Nothing is doubled in a text that lacks the mark. -/
theorem doubleMark_of_not_mem {mark : Char} :
    ∀ {cs : List Char}, mark ∉ cs → doubleMark mark cs = cs := by
  intro cs
  induction cs with
  | nil => intro _; rfl
  | cons c cs ih =>
      intro h
      have hc : c ≠ mark := fun hcm => h (by simp [hcm])
      rw [doubleMark, if_neg hc, ih (fun hm => h (List.mem_cons_of_mem _ hm))]

/-- Quotes have no case, and no letter becomes one. -/
theorem upper_doubleMark (cs : List Char) :
    upper (doubleMark '\'' cs) = doubleMark '\'' (upper cs) := by
  induction cs with
  | nil => rfl
  | cons c cs ih =>
      rw [upper_cons, doubleMark, doubleMark]
      by_cases hc : c = '\''
      · rw [if_pos hc, hc, if_pos (by decide), upper_cons, upper_cons, ih]
        rfl
      · rw [if_neg hc, if_neg (toUpper_ne (by decide) hc), upper_cons, ih]

/-- A prefix without the mark is the same whether marks are doubled or not. -/
theorem isPrefixOf_doubleMark {mark : Char} : ∀ {needle : List Char}, mark ∉ needle →
    ∀ cs, needle.isPrefixOf (doubleMark mark cs) = needle.isPrefixOf cs := by
  intro needle
  induction needle with
  | nil => intro _ cs; rw [List.isPrefixOf_nil_left, List.isPrefixOf_nil_left]
  | cons x needle ih =>
      intro h cs
      have hx : x ≠ mark := fun hxm => h (by simp [hxm])
      cases cs with
      | nil => rfl
      | cons c cs =>
          rw [doubleMark]
          by_cases hc : c = mark
          · rw [if_pos hc, List.isPrefixOf_cons_cons, List.isPrefixOf_cons_cons, hc,
              beq_false_of_ne hx, Bool.false_and, Bool.false_and]
          · rw [if_neg hc, List.isPrefixOf_cons_cons, List.isPrefixOf_cons_cons,
              ih fun hm => h (List.mem_cons_of_mem _ hm)]

/-- Doubled marks hide nothing from a search without the mark, and add nothing. -/
theorem occursIn_doubleMark {mark : Char} {needle : List Char} (h : mark ∉ needle)
    (hne : needle ≠ []) (cs : List Char) :
    occursIn needle (doubleMark mark cs) = occursIn needle cs := by
  induction cs with
  | nil => rfl
  | cons c cs ih =>
      have hprefix := isPrefixOf_doubleMark h (c :: cs)
      rw [doubleMark] at hprefix ⊢
      by_cases hc : c = mark
      · rw [if_pos hc, hc, occursIn_cons_of_not_mem h hne, occursIn_cons_of_not_mem h hne,
          occursIn_cons_of_not_mem h hne, ih]
      · rw [if_neg hc] at hprefix ⊢
        rw [occursIn, occursIn, hprefix, ih]

/-! ## Digits -/

/-- The digits of a number are digits. -/
theorem isDigit_of_mem_digits {n : Nat} {c : Char} (h : c ∈ digits n) : c.isDigit = true :=
  Nat.isDigit_of_mem_toDigits (by decide) (by decide) h

/-- **DIGITS ARE READ BACK.**  The reader passes over a sign, but there is none. -/
theorem readNat?_digits (n : Nat) : readNat? (digits n) = some n := by
  have hall : (digits n).all Char.isDigit = true :=
    List.all_eq_true.mpr fun c hc => isDigit_of_mem_digits hc
  have hne : digits n ≠ [] := Nat.toDigits_ne_nil
  have hdigits : digitsOnly? (digits n) = some n := by
    have hvalue : ofDigits (digits n) = n := Nat.ofDigitChars_ten_toDigits
    rw [digitsOnly?, hall, hvalue]
    simp [hne]
  cases hd : digits n with
  | nil => exact absurd hd hne
  | cons c cs =>
      -- a sign would be passed over, but the first character is a digit
      have hplus : c ≠ '+' := by
        rintro rfl
        exact absurd (isDigit_of_mem_digits (hd ▸ List.mem_cons_self ..)) (by decide)
      rw [hd] at hdigits
      rw [readNat?]
      · exact hdigits
      · rintro _ h
        exact hplus (List.cons.inj h).1

/-- A character that is no digit stands in no number. -/
theorem not_mem_digits {c : Char} (h : c.isDigit = false) (n : Nat) : c ∉ digits n := by
  intro hc
  rw [isDigit_of_mem_digits hc] at h
  exact nomatch h

/-- A digit is no blank. -/
theorem isBlank_of_isDigit {c : Char} (h : c.isDigit = true) : isBlank c = false := by
  have hrange : 48 ≤ c.toNat ∧ c.toNat ≤ 57 := by
    simpa [Char.isDigit, UInt32.le_iff_toNat_le] using h
  simp [isBlank]
  omega

/-- No digit comes after the nine. -/
theorem val_le_of_isDigit {c : Char} (h : c.isDigit = true) : c.val ≤ 57 := by
  rw [Char.isDigit, Bool.and_eq_true] at h
  exact of_decide_eq_true h.2

theorem ascii_of_isDigit {c : Char} (h : c.isDigit = true) : c.val ≤ 127 :=
  UInt32.le_trans (val_le_of_isDigit h) (by decide)

/-- Digits have no case. -/
theorem upper_digits (n : Nat) : upper (digits n) = digits n := by
  have hupper : ∀ c ∈ digits n, c.toUpper = id c := by
    intro c hc
    have hlower : ¬ ('a'.val ≤ c.val ∧ c.val ≤ 'z'.val) := by
      rintro ⟨h, -⟩
      exact absurd (UInt32.le_trans h (val_le_of_isDigit (isDigit_of_mem_digits hc))) (by decide)
    exact dif_neg hlower
  rw [upper, List.map_congr_left hupper, List.map_id]

/-- A digit is the lower case of itself. -/
theorem toLower_of_isDigit {c : Char} (h : c.isDigit = true) : c.toLower = c := by
  refine dif_neg ?_
  rintro ⟨hupper, -⟩
  exact absurd (UInt32.le_trans hupper (val_le_of_isDigit h)) (by decide)

/-- A number begins and ends with a digit. -/
theorem solid_digits (n : Nat) : Solid (digits n) :=
  solid_of_no_blank Nat.toDigits_ne_nil
    fun _ hc => isBlank_of_isDigit (isDigit_of_mem_digits hc)

end Gridbase.Text
