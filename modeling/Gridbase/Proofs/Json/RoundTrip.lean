import Gridbase.Proofs.Json.Numbers
import Mathlib.Data.List.Forall2
import Mathlib.Tactic.SplitIfs

/-! # Written JSON, read back

    Both written forms of a value are read back as the value (`parse?_compact`,
    `parse?_pretty`), if its integers have 64 bits, its doubles are restored from their texts,
    and it does not nest too deep (`Within`).

    * A string is read back character by character, one step of the reader for each
      (`stringBody?_escape`, `stringBody?_flatMap`).
    * A list of entries between commas is read back entry by entry (`Listing.read_joined`); arrays
      and objects are such lists, in both forms, with different gaps.
    * A text READS as a value if it is read as the value in front of whatever may follow it
      (`Reads`).  Every former of values keeps that, so both written forms have it
      (`Within.reads_compact`, `Within.reads_pretty`). -/

namespace Gridbase.Json

open Gridbase.Text

/-! ## Strings -/

/-- A control character is written by its number. -/
theorem escapedUnit?_hexByte {n : Nat} (h : n < 32) (rest : List Char) :
    escapedUnit? ('0' :: '0' :: (lower (hexByte (UInt8.ofNat n)) ++ rest))
      = some (Char.ofNat n, rest) := by
  have hvalues : ∀ n < 32, (lower (hexByte (UInt8.ofNat n))).map hexValue?
      = [some (n / 16), some (n % 16)] := by decide
  obtain ⟨a, more, hcs, ha, hmore⟩ := List.map_eq_cons_iff.mp (hvalues n h)
  obtain ⟨b, more, rfl, hb, hnil⟩ := List.map_eq_cons_iff.mp hmore
  rw [hcs, List.map_eq_nil_iff.mp hnil]
  have hunit : hexUnit? ('0' :: '0' :: a :: b :: rest) = some (n, rest) := by
    have hn : ((0 * 16 + 0) * 16 + n / 16) * 16 + n % 16 = n := by omega
    rw [hexUnit?, ha, hb]
    exact congrArg (fun m => some (m, rest)) hn
  -- a control character is no half of a pair
  have hlow : ¬ (0xD800 ≤ n && n < 0xDC00) = true := by simp; omega
  have hhigh : ¬ (0xDC00 ≤ n && n < 0xE000) = true := by simp; omega
  show (hexUnit? ('0' :: '0' :: a :: b :: rest)).bind _ = _
  rw [hunit, Option.bind_some]
  dsimp only
  rw [if_neg hlow, if_neg hhigh]
  rfl

/-- A control character is read back from its escape. -/
theorem stringBody?_control {c : Char} (h : c.toNat < 32) (fuel : Nat) (acc rest : List Char) :
    stringBody? (fuel + 1) acc ('\\' :: 'u' :: '0' :: '0' ::
        (lower (hexByte (UInt8.ofNat c.toNat)) ++ rest))
      = stringBody? fuel (c :: acc) rest := by
  rw [stringBody?, escapedUnit?_hexByte h, Char.ofNat_toNat]

/-- A character without an escape is read as it stands. -/
theorem stringBody?_plain {c : Char} (hquote : c ≠ '"') (hslash : c ≠ '\\') (h : ¬ c.toNat < 32)
    (fuel : Nat) (acc rest : List Char) :
    stringBody? (fuel + 1) acc (c :: rest) = stringBody? fuel (c :: acc) rest := by
  rw [stringBody?]
  · exact if_neg (by simp [hslash, h])
  · exact hquote
  · exact fun _ hc _ => hslash hc
  · exact fun _ _ hc _ => hslash hc

/-- **ONE CHARACTER OF A STRING** is read back in one step. -/
theorem stringBody?_escape (fuel : Nat) (acc : List Char) (c : Char) (rest : List Char) :
    stringBody? (fuel + 1) acc (escape c ++ rest) = stringBody? fuel (c :: acc) rest := by
  unfold escape
  split
  · rfl
  · rfl
  · rfl
  · rfl
  · rfl
  · rename_i hquote hslash _ _ _
    split_ifs with h8 h12 hcontrol
    · rw [← Char.ofNat_toNat c, h8]
      rfl
    · rw [← Char.ofNat_toNat c, h12]
      rfl
    · exact stringBody?_control hcontrol fuel acc rest
    · exact stringBody?_plain hquote hslash hcontrol fuel acc rest

/-- **A STRING IS READ BACK**, with a step for each character and one for its closing
    mark.  Every escape begins with a character of its own, so the reader never takes a
    part of one for the closing mark. -/
theorem stringBody?_flatMap (cs rest : List Char) :
    ∀ (fuel : Nat) (acc : List Char), cs.length < fuel →
      stringBody? fuel acc (cs.flatMap escape ++ '"' :: rest)
        = some (String.ofList (acc.reverse ++ cs), rest) := by
  induction cs with
  | nil =>
      intro fuel acc hfuel
      obtain ⟨fuel, rfl⟩ := Nat.exists_eq_add_of_lt hfuel
      rw [List.append_nil, List.flatMap_nil, List.nil_append, stringBody?]
  | cons c cs ih =>
      intro fuel acc hfuel
      cases fuel with
      | zero => exact absurd hfuel (Nat.not_lt_zero _)
      | succ fuel =>
          rw [List.flatMap_cons, List.append_assoc, stringBody?_escape,
            ih fuel (c :: acc) (Nat.lt_of_succ_lt_succ hfuel), List.reverse_cons, List.append_assoc]
          rfl

theorem length_le_flatMap_escape (cs : List Char) : cs.length ≤ (cs.flatMap escape).length := by
  have hone (c : Char) : 1 ≤ (escape c).length := by
    unfold escape
    split
    · decide
    · decide
    · decide
    · decide
    · decide
    · split_ifs <;> simp
  induction cs with
  | nil => exact Nat.le_refl 0
  | cons c cs ih =>
      have hc := hone c
      rw [List.flatMap_cons, List.length_append, List.length_cons]
      omega

/-- The text of a string between its marks. -/
theorem toList_stringText (s : String) :
    (stringText s).toList = '"' :: (s.toList.flatMap escape ++ ['"']) := String.toList_ofList

/-- What is read after the opening mark of a string. -/
theorem stringBody?_stringText (s : String) (rest : List Char) :
    stringBody? ((s.toList.flatMap escape ++ '"' :: rest).length + 1) []
      (s.toList.flatMap escape ++ '"' :: rest) = some (s, rest) := by
  have hlength := length_le_flatMap_escape s.toList
  rw [stringBody?_flatMap _ _ _ _ (by rw [List.length_append]; omega)]
  simp

/-! ## Gaps -/

/-- Blanks between tokens. -/
def Gap (cs : List Char) : Prop := ∀ c ∈ cs, isGap c = true

instance (cs : List Char) : Decidable (Gap cs) := List.decidableBAll _ cs

/-- The text begins with a token, and does not close a list.  So a reader of entries
    takes it for one more entry. -/
def Starts (cs : List Char) : Prop :=
  ∃ c more, cs = c :: more ∧ isGap c = false ∧ c ≠ ']' ∧ c ≠ '\x7d'

theorem skipGap_append {gap : List Char} (h : Gap gap) (rest : List Char) :
    skipGap (gap ++ rest) = skipGap rest := List.dropWhile_append_of_pos h

theorem skipGap_cons {c : Char} (h : isGap c = false) (rest : List Char) :
    skipGap (c :: rest) = c :: rest := List.dropWhile_cons_of_neg (by simp [h])

theorem Starts.skipGap_eq {cs : List Char} (h : Starts cs) : skipGap cs = cs := by
  obtain ⟨c, more, rfl, hgap, -⟩ := h
  exact skipGap_cons hgap more

theorem Starts.append {cs : List Char} (h : Starts cs) (rest : List Char) : Starts (cs ++ rest) := by
  obtain ⟨c, more, rfl, hc⟩ := h
  exact ⟨c, more ++ rest, rfl, hc⟩

theorem Starts.length_pos {cs : List Char} (h : Starts cs) : 0 < cs.length := by
  obtain ⟨c, more, rfl, -⟩ := h
  exact Nat.succ_pos _

/-- A number ends at a mark that cannot belong to it. -/
theorem stopsNumber_mark {c : Char} (h : c.isDigit = false ∧ c ≠ '.' ∧ c ≠ 'e' ∧ c ≠ 'E')
    (rest : List Char) : StopsNumber (c :: rest) := by
  intro d hd
  obtain rfl : c = d := Option.some.inj hd
  exact h

/-- A number ends at a gap. -/
theorem stopsNumber_gap {gap : List Char} (h : Gap gap) {rest : List Char}
    (hrest : StopsNumber rest) : StopsNumber (gap ++ rest) := by
  cases gap with
  | nil => exact hrest
  | cons c gap =>
      refine stopsNumber_mark ?_ _
      have hc := h c (List.mem_cons_self ..)
      simp only [isGap, Bool.or_eq_true, decide_eq_true_eq] at hc
      rcases hc with ((rfl | rfl) | rfl) | rfl <;> decide

/-! ## Lists of entries -/

/-- A reader that gathers entries in reverse.  An entry is read in front of a comma, after which
    the reader goes on, and in front of the closing mark, where it ends. -/
structure Listing {α : Type} (read? : Nat → List α → List Char → Option (List α × List Char))
    (closing : Char) (Entry : α → List Char → Prop) : Prop where
  starts : ∀ {a cs}, Entry a cs → Starts cs
  next : ∀ {a cs}, Entry a cs → ∀ {gap more}, Gap gap → Starts more →
    ∀ {fuel acc}, cs.length < fuel →
      read? (fuel + 1) acc (cs ++ ',' :: (gap ++ more)) = read? fuel (a :: acc) more
  close : ∀ {a cs}, Entry a cs → ∀ {gap}, Gap gap → ∀ {fuel acc rest}, cs.length < fuel →
    read? (fuel + 1) acc (cs ++ (gap ++ closing :: rest)) = some ((a :: acc).reverse, rest)

theorem Listing.starts_joined {α : Type}
    {read? : Nat → List α → List Char → Option (List α × List Char)} {closing : Char}
    {Entry : α → List Char → Prop} (L : Listing read? closing Entry) (sep : List Char)
    {items : List α} {texts : List (List Char)} (h : List.Forall₂ Entry items texts)
    (hne : items ≠ []) : Starts (sep.intercalate texts) := by
  cases h with
  | nil => exact absurd rfl hne
  | @cons a cs items texts ha h =>
      cases texts with
      | nil => simpa using L.starts ha
      | cons more texts =>
          rw [List.intercalate_cons_cons, List.append_assoc]
          exact (L.starts ha).append _

/-- **A LIST OF ENTRIES IS READ BACK**, entry by entry. -/
theorem Listing.read_joined {α : Type}
    {read? : Nat → List α → List Char → Option (List α × List Char)} {closing : Char}
    {Entry : α → List Char → Prop} (L : Listing read? closing Entry) {gap last : List Char}
    (hgap : Gap gap) (hlast : Gap last) (rest : List Char) {items : List α}
    {texts : List (List Char)} (h : List.Forall₂ Entry items texts) (hne : items ≠ []) :
    ∀ (fuel : Nat) (acc : List α), ((',' :: gap).intercalate texts).length + 1 < fuel →
      read? fuel acc ((',' :: gap).intercalate texts ++ (last ++ closing :: rest))
        = some (acc.reverse ++ items, rest) := by
  -- the entries gathered so far are general
  induction h with
  | nil => exact absurd rfl hne
  | @cons a cs items texts ha h ih =>
      intro fuel acc hfuel
      cases fuel with
      | zero => exact absurd hfuel (Nat.not_lt_zero _)
      | succ fuel =>
          cases h with
          | nil =>
              have hone : (',' :: gap).intercalate [cs] = cs := by simp
              rw [hone] at hfuel ⊢
              rw [L.close ha hlast (Nat.lt_of_succ_lt_succ hfuel), List.reverse_cons]
          | @cons b ds items texts hb h =>
              have hrest : List.Forall₂ Entry (b :: items) (ds :: texts) := .cons hb h
              have hstarts := (L.starts_joined (',' :: gap) hrest (by simp)).append
                (last ++ closing :: rest)
              have hpos := (L.starts ha).length_pos
              rw [List.intercalate_cons_cons] at hfuel ⊢
              simp only [List.length_append, List.length_cons] at hfuel
              have hread := ih (by simp) fuel (a :: acc) (by omega)
              simp only [List.append_assoc, List.cons_append]
              rw [L.next ha hgap hstarts (by omega), hread, List.reverse_cons, List.append_assoc]
              rfl

/-! ## Texts that read as a value -/

/-- The text is read as the value in front of whatever may follow it.  The fuel has to
    exceed its length, and the reader has that much. -/
structure Reads (depth : Nat) (j : Json) (cs : List Char) : Prop where
  starts : Starts cs
  read : ∀ {fuel rest}, cs.length < fuel → StopsNumber rest →
    value? fuel depth (cs ++ rest) = some (j, rest)

variable {depth fuel : Nat} {j : Json} {gap last cs rest : List Char}

/-- One step of the reader is enough, with fuel left for the rest of the text. -/
theorem Reads.of_step (hstarts : Starts cs)
    (hread : ∀ {fuel rest}, cs.length ≤ fuel → StopsNumber rest →
      value? (fuel + 1) depth (cs ++ rest) = some (j, rest)) : Reads depth j cs where
  starts := hstarts
  read := by
    intro fuel rest hfuel hrest
    obtain ⟨fuel, rfl⟩ := Nat.exists_eq_succ_of_ne_zero (Nat.ne_zero_of_lt hfuel)
    exact hread (Nat.le_of_lt_succ hfuel) hrest

/-- A text that reads as a value, as a whole, is parsed as it. -/
theorem Reads.parse?_eq {s : String} (h : Reads maxDepth j s.toList) : parse? s = some j := by
  have hread := h.read (Nat.lt_succ_self _) (fun _ hc => nomatch hc : StopsNumber [])
  rw [List.append_nil] at hread
  rw [parse?, h.starts.skipGap_eq, hread]
  rfl

/-- The first character decides how a value is read. -/
theorem value?_number {c : Char} (h : c = '-' ∨ c.isDigit = true) (cs : List Char) :
    value? (fuel + 1) depth (c :: cs) = number? (c :: cs) := by
  have hne (d : Char) (hd : d ≠ '-' ∧ d.isDigit = false) : c ≠ d := by
    rintro rfl
    rcases h with rfl | hdigit
    · exact hd.1 rfl
    · exact Bool.false_ne_true (hd.2.symm.trans hdigit)
  rw [value?]
  all_goals
    intro _ heq
    exact hne _ (by decide) (List.cons.inj heq).1

theorem reads_number {c : Char} (h : c = '-' ∨ c.isDigit = true)
    (hread : number? (c :: cs) = some (j, [])) : Reads depth j (c :: cs) := by
  have hstarts : Starts (c :: cs) := by
    refine ⟨c, cs, rfl, ?_⟩
    rcases h with rfl | hdigit
    · decide
    · refine ⟨?_, ?_, ?_⟩
      · by_contra hgap
        simp only [isGap, Bool.not_eq_false, Bool.or_eq_true, decide_eq_true_eq] at hgap
        rcases hgap with ((rfl | rfl) | rfl) | rfl <;> exact nomatch hdigit
      · rintro rfl
        exact nomatch hdigit
      · rintro rfl
        exact nomatch hdigit
  refine .of_step hstarts fun _ hrest => ?_
  rw [List.cons_append, value?_number h]
  exact number?_append hread hrest

theorem reads_integer {n : Int} (h : InRange n) : Reads depth (.integer n) (ofInt n).toList := by
  have hread := number?_ofInt h
  have hfirst : ∃ c cs, (ofInt n).toList = c :: cs ∧ (c = '-' ∨ c.isDigit = true) := by
    cases n with
    | ofNat n =>
        obtain ⟨c, cs, hcs⟩ := List.exists_cons_of_ne_nil
          (show digits n ≠ [] from Nat.toDigits_ne_nil)
        have hmem : c ∈ digits n := by
          rw [hcs]
          exact List.mem_cons_self ..
        exact ⟨c, cs, String.toList_ofList.trans hcs, .inr (isDigit_of_mem_digits hmem)⟩
    | negSucc n => exact ⟨'-', _, by rw [ofInt, String.toList_append]; rfl, .inl rfl⟩
  obtain ⟨c, cs, hcs, hc⟩ := hfirst
  rw [hcs] at hread ⊢
  exact reads_number hc hread

theorem reads_string (s : String) : Reads depth (.string s) (stringText s).toList := by
  refine .of_step ⟨'"', _, toList_stringText s, by decide⟩ fun _ _ => ?_
  rw [toList_stringText, List.cons_append, List.append_assoc, List.singleton_append, value?,
    stringBody?_stringText]
  rfl

theorem reads_null : Reads depth .null "null".toList :=
  .of_step ⟨'n', _, rfl, by decide⟩ fun _ _ => rfl

theorem reads_bool (b : Bool) :
    Reads depth (.bool b) (if b then "true" else "false").toList := by
  cases b with
  | true => exact .of_step ⟨'t', _, rfl, by decide⟩ fun _ _ => rfl
  | false => exact .of_step ⟨'f', _, rfl, by decide⟩ fun _ _ => rfl

/-! ## Arrays and objects -/

theorem listing_items (depth : Nat) :
    Listing (fun fuel => items? fuel depth) ']' (Reads depth) where
  starts := Reads.starts
  -- an item and the comma behind it
  next := by
    intro j cs hj gap more hgap hmore fuel acc hfuel
    have hread : value? fuel depth (cs ++ ',' :: (gap ++ more)) = some (j, ',' :: (gap ++ more)) :=
      hj.read hfuel (stopsNumber_mark (by decide) _)
    rw [items?, hread]
    show items? fuel depth (j :: acc) (skipGap (gap ++ more)) = _
    rw [skipGap_append hgap, hmore.skipGap_eq]
  -- the last item and the bracket behind it
  close := by
    intro j cs hj gap hgap fuel acc rest hfuel
    have hread : value? fuel depth (cs ++ (gap ++ ']' :: rest)) = some (j, gap ++ ']' :: rest) :=
      hj.read hfuel (stopsNumber_gap hgap (stopsNumber_mark (by decide) _))
    rw [items?, hread]
    dsimp only
    rw [skipGap_append hgap, skipGap_cons (by decide)]
    rfl

/-- A member is its name, a colon, perhaps a gap, and its value.  The gap is empty in
    the compact form. -/
def ReadsMember (depth : Nat) (gap : List Char) (m : String × Json) (cs : List Char) : Prop :=
  ∃ text, (stringText m.1).toList ++ ':' :: (gap ++ text) = cs ∧ Reads depth m.2 text

/-- What the reader does after a member: it goes on after a comma, and ends at the closing mark. -/
def afterMember (fuel depth : Nat) (acc : List (String × Json)) (rest : List Char) :
    Option (List (String × Json) × List Char) :=
  match skipGap rest with
  | ',' :: rest => members? fuel depth acc (skipGap rest)
  | '\x7d' :: rest => some (acc.reverse, rest)
  | _ => none

/-- The name of a member and its value are read before what follows it. -/
theorem members?_member {m : String × Json} (hgap : Gap gap) (hm : ReadsMember depth gap m cs)
    (hfuel : cs.length < fuel) (hrest : StopsNumber rest) (acc : List (String × Json)) :
    members? (fuel + 1) depth acc (cs ++ rest) = afterMember fuel depth (m :: acc) rest := by
  obtain ⟨text, rfl, hvalue⟩ := hm
  have htext : text.length < fuel := by
    simp only [List.length_append, List.length_cons] at hfuel
    omega
  have hread := hvalue.read htext hrest
  have hstarts := (hvalue.starts.append rest).skipGap_eq
  rw [toList_stringText]
  simp only [List.cons_append, List.append_assoc, List.nil_append]
  rw [members?, stringBody?_stringText]
  dsimp only
  rw [skipGap_cons (by decide)]
  -- after a name stands the colon, and nothing else
  split
  · rename_i hcolon
    obtain ⟨-, rfl⟩ := List.cons.inj hcolon
    rw [skipGap_append hgap, hstarts, hread]
    rfl
  · rename_i hother
    exact (hother _ rfl).elim

theorem listing_members (depth : Nat) (hgap : Gap gap) :
    Listing (fun fuel => members? fuel depth) '\x7d' (ReadsMember depth gap) where
  starts := by
    rintro m cs ⟨text, rfl, -⟩
    exact ⟨'"', _, by rw [toList_stringText, List.cons_append], by decide⟩
  next := by
    intro m cs hm gap' more hgap' hmore fuel acc hfuel
    rw [members?_member hgap hm hfuel (stopsNumber_mark (by decide) _), afterMember,
      skipGap_cons (by decide)]
    show members? fuel depth (m :: acc) (skipGap (gap' ++ more)) = _
    rw [skipGap_append hgap', hmore.skipGap_eq]
  close := by
    intro m cs hm gap' hgap' fuel acc rest hfuel
    rw [members?_member hgap hm hfuel (stopsNumber_gap hgap' (stopsNumber_mark (by decide) _)),
      afterMember, skipGap_append hgap', skipGap_cons (by decide)]
    rfl

/-- A nesting value is read by the reader of its entries. -/
theorem value?_array (hgap : Gap gap) (hcs : Starts cs) :
    value? (fuel + 1) (depth + 1) ('[' :: (gap ++ cs))
      = (items? fuel depth [] cs).map fun r => (.array r.1, r.2) := by
  have hskip : skipGap (gap ++ cs) = cs := (skipGap_append hgap cs).trans hcs.skipGap_eq
  obtain ⟨c, more, rfl, -, hclosing, -⟩ := hcs
  simp [value?, hskip, hclosing]

theorem value?_object (hgap : Gap gap) (hcs : Starts cs) :
    value? (fuel + 1) (depth + 1) ('\x7b' :: (gap ++ cs))
      = (members? fuel depth [] cs).map fun r => (.object r.1, r.2) := by
  have hskip : skipGap (gap ++ cs) = cs := (skipGap_append hgap cs).trans hcs.skipGap_eq
  obtain ⟨c, more, rfl, -, -, hclosing⟩ := hcs
  simp [value?, hskip, hclosing]

/-- A list of lines between marks, with a gap before every line and after the last.
    Both written forms are made of these; they differ in the gaps. -/
def framed (opening closing : Char) (first last : String) (lines : List String) : String :=
  if lines.isEmpty then String.ofList [opening, closing]
  else
    String.ofList [opening] ++ first ++ joinWith ("," ++ first) lines ++ last
      ++ String.ofList [closing]

theorem toList_framed {opening closing : Char} {first last : String} {lines : List String}
    (h : lines ≠ []) :
    (framed opening closing first last lines).toList
      = opening :: (first.toList ++ ((',' :: first.toList).intercalate (lines.map String.toList)
        ++ (last.toList ++ [closing]))) := by
  rw [framed, if_neg (by simpa using h)]
  simp [toList_joinWith]

/-- Without gaps, empty lists need no special form. -/
theorem framed_empty (opening closing : Char) (lines : List String) :
    framed opening closing "" "" lines
      = String.ofList [opening] ++ joinWith "," lines ++ String.ofList [closing] := by
  rw [framed]
  split
  · rename_i hnil
    rw [List.isEmpty_iff.mp hnil, joinWith, String.append_empty, ← String.ofList_append]
    rfl
  · rw [String.append_empty, String.append_empty, String.append_empty]

/-- **AN ARRAY IS READ BACK** from the texts of its items.  An empty one has nothing
    between its marks, not even a gap. -/
theorem reads_array {items : List Json} {text : Json → String} {first last : String}
    (h : ∀ j ∈ items, Reads depth j (text j).toList) (hfirst : Gap first.toList)
    (hlast : Gap last.toList) :
    Reads (depth + 1) (.array items) (framed '[' ']' first last (items.map text)).toList := by
  -- empty brackets are read in one step
  by_cases hnil : items = []
  · subst hnil
    have htext : (framed '[' ']' first last ([].map text)).toList = ['[', ']'] :=
      String.toList_ofList
    rw [htext]
    exact .of_step ⟨'[', [']'], rfl, by decide⟩ fun _ _ => rfl
  · have hentries : List.Forall₂ (Reads depth) items ((items.map text).map String.toList) := by
      rw [List.map_map, List.forall₂_map_right_iff]
      exact List.forall₂_same.mpr h
    have hstarts := (listing_items depth).starts_joined (',' :: first.toList) hentries hnil
    rw [toList_framed (by simpa using hnil)]
    refine .of_step ⟨'[', _, rfl, by decide⟩ fun {fuel rest} hfuel _ => ?_
    simp only [List.length_cons, List.length_append] at hfuel
    -- the fuel is more than the text, and the items are shorter than the whole
    have hread := (listing_items depth).read_joined hfirst hlast rest hentries hnil fuel []
      (by omega)
    simp only [List.cons_append, List.append_assoc, List.nil_append]
    rw [value?_array hfirst (hstarts.append _), hread]
    rfl

/-- **AN OBJECT IS READ BACK** from its names and the texts of its values.  The names
    are strings, and are read back as such. -/
theorem reads_object {members : List (String × Json)} {text : Json → String}
    {first last colon : String} (h : ∀ m ∈ members, Reads depth m.2 (text m.2).toList)
    (hfirst : Gap first.toList) (hlast : Gap last.toList) (hcolon : Gap colon.toList) :
    Reads (depth + 1) (.object members) (framed '\x7b' '\x7d' first last
      (members.map fun m => stringText m.1 ++ (":" ++ colon) ++ text m.2)).toList := by
  -- as for arrays, with a name and a colon before each value
  by_cases hnil : members = []
  · subst hnil
    have htext : (framed '\x7b' '\x7d' first last []).toList = ['\x7b', '\x7d'] :=
      String.toList_ofList
    rw [List.map_nil, htext]
    exact .of_step ⟨'\x7b', ['\x7d'], rfl, by decide⟩ fun _ _ => rfl
  · have hentries : List.Forall₂ (ReadsMember depth colon.toList) members
        ((members.map fun m => stringText m.1 ++ (":" ++ colon) ++ text m.2).map
          String.toList) := by
      rw [List.map_map, List.forall₂_map_right_iff]
      exact List.forall₂_same.mpr fun m hm => ⟨(text m.2).toList, by simp, h m hm⟩
    have hlisting := listing_members depth hcolon
    have hstarts := hlisting.starts_joined (',' :: first.toList) hentries hnil
    rw [toList_framed (by simpa using hnil)]
    refine .of_step ⟨'\x7b', _, rfl, by decide⟩ fun {fuel rest} hfuel _ => ?_
    simp only [List.length_cons, List.length_append] at hfuel
    have hread := hlisting.read_joined hfirst hlast rest hentries hnil fuel [] (by omega)
    simp only [List.cons_append, List.append_assoc, List.nil_append]
    rw [value?_object hfirst (hstarts.append _), hread]
    rfl

/-! ## Written forms -/

/-- The double is read back from its text.  This is asked of each double that is
    written, as neither rounding, that of the writer or that of the reader, is followed
    here. -/
def IsRestored (x : Binary64) : Prop := number? x.dataText.toList = some (.real x, [])

instance (x : Binary64) : Decidable (IsRestored x) :=
  match h : number? x.dataText.toList with
  | some (.real y, []) =>
      if hy : y = x then isTrue (by rw [IsRestored, h, hy])
      else isFalse (by rw [IsRestored, h]; simpa using hy)
  | some (.real _, _ :: _) => isFalse (by rw [IsRestored, h]; simp)
  | some (.null, _) | some (.bool _, _) | some (.integer _, _) | some (.string _, _)
  | some (.array _, _) | some (.object _, _) => isFalse (by rw [IsRestored, h]; simp)
  | none => isFalse (by rw [IsRestored, h]; simp)

/-- The value nests at most so deep, its integers have 64 bits, and its doubles are
    fine.  What is fine is left open: finite, or restored from its text. -/
inductive Within (fine : Binary64 → Prop) : Nat → Json → Prop
  | null {depth : Nat} : Within fine depth .null
  | bool {depth : Nat} (b : Bool) : Within fine depth (.bool b)
  | integer {depth : Nat} {n : Int} (h : InRange n) : Within fine depth (.integer n)
  | real {depth : Nat} {x : Binary64} (h : fine x) : Within fine depth (.real x)
  | string {depth : Nat} (s : String) : Within fine depth (.string s)
  | array {depth : Nat} {items : List Json} (h : ∀ j ∈ items, Within fine depth j) :
      Within fine (depth + 1) (.array items)
  | object {depth : Nat} {members : List (String × Json)}
      (h : ∀ m ∈ members, Within fine depth m.2) : Within fine (depth + 1) (.object members)

theorem compactItems_eq (items : List Json) : compactItems items = items.map compact := by
  induction items with
  | nil => rfl
  | cons j items ih => rw [compactItems, ih, List.map_cons]

theorem compactMembers_eq (members : List (String × Json)) :
    compactMembers members
      = members.map fun m => stringText m.1 ++ (":" ++ "") ++ compact m.2 := by
  induction members with
  | nil => rfl
  | cons m members ih => rw [compactMembers, ih, List.map_cons, String.append_empty]

theorem prettyItems_eq (level : Nat) (items : List Json) :
    prettyItems level items = items.map (pretty level) := by
  induction items with
  | nil => rfl
  | cons j items ih => rw [prettyItems, ih, List.map_cons]

theorem prettyMembers_eq (level : Nat) (members : List (String × Json)) :
    prettyMembers level members
      = members.map fun m => stringText m.1 ++ (":" ++ " ") ++ pretty level m.2 := by
  induction members with
  | nil => rfl
  | cons m members ih =>
      rw [prettyMembers, ih, List.map_cons]
      rfl

theorem gap_empty : Gap "".toList := fun _ hc => nomatch hc

theorem gap_lineStart (level : Nat) : Gap (lineStart level).toList := by
  intro c hc
  rw [lineStart, String.toList_append, List.mem_append] at hc
  rcases hc with hline | hblank
  · rw [List.mem_singleton.mp hline]
    rfl
  · rw [String.toList_ofList] at hblank
    rw [List.eq_of_mem_replicate hblank]
    rfl

/-- A text that a number is read of begins like a number. -/
theorem reads_real {x : Binary64} (h : IsRestored x) : Reads depth (.real x) x.dataText.toList := by
  rw [IsRestored] at h
  cases hcs : x.dataText.toList with
  | nil =>
      rw [hcs] at h
      exact nomatch h
  | cons c cs =>
      rw [hcs] at h
      refine reads_number ?_ h
      by_cases hminus : c = '-'
      · exact .inl hminus
      · refine .inr ?_
        rw [number?_of_ne (head?_ne hminus cs)] at h
        obtain ⟨⟨p, more⟩, hwhole, -⟩ := Option.bind_eq_some_iff.mp h
        exact isDigit_of_wholePart? hwhole

namespace Within

variable {level : Nat}

/-- **THE COMPACT FORM** reads as the value. -/
theorem reads_compact (h : Within IsRestored depth j) : Reads depth j j.compact.toList := by
  -- induction on the bounds: the values inside lie one level deeper
  induction h with
  | null => exact reads_null
  | bool b => exact reads_bool b
  | integer h => exact reads_integer h
  | real h => exact reads_real h
  | string s => exact reads_string s
  | @array depth items _ ih =>
      have hform : compact (.array items) = framed '[' ']' "" "" (items.map compact) := by
        rw [compact, compactItems_eq, framed_empty]
      rw [hform]
      exact reads_array ih gap_empty gap_empty
  | @object depth members _ ih =>
      have hform : compact (.object members) = framed '\x7b' '\x7d' "" ""
          (members.map fun m => stringText m.1 ++ (":" ++ "") ++ compact m.2) := by
        rw [compact, compactMembers_eq, framed_empty]
      rw [hform]
      exact reads_object ih gap_empty gap_empty gap_empty

/-- **THE INDENTED FORM** reads as the value, at every level of indentation. -/
theorem reads_pretty (h : Within IsRestored depth j) :
    ∀ level, Reads depth j (j.pretty level).toList := by
  induction h with
  | null => exact fun _ => reads_null
  | bool b => exact fun _ => reads_bool b
  | integer h => exact fun _ => reads_integer h
  | real h => exact fun _ => reads_real h
  | string s => exact fun _ => reads_string s
  | @array depth items _ ih =>
      intro level
      rw [pretty, prettyItems_eq]
      exact reads_array (fun j hj => ih j hj (level + 1)) (gap_lineStart _) (gap_lineStart _)
  | @object depth members _ ih =>
      intro level
      rw [pretty, prettyMembers_eq]
      exact reads_object (fun m hm => ih m hm (level + 1)) (gap_lineStart _) (gap_lineStart _)
        (by decide)

/-- **BOTH WRITTEN FORMS ARE PARSED** as the value.  The value nests no deeper than the
    reader goes. -/
theorem parse?_eq (h : Within IsRestored maxDepth j) :
    parse? j.compact = some j ∧ parse? (j.pretty 0) = some j :=
  ⟨h.reads_compact.parse?_eq, (h.reads_pretty 0).parse?_eq⟩

end Within

end Gridbase.Json
