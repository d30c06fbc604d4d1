import Gridbase.Dialect
import Gridbase.Proofs.Text

/-! # Identifiers — what stands in a valid name

    A valid name consists of letters, digits and underscores.  Whatever else a
    statement is written with (blanks, quotes, commas, parentheses) therefore
    never comes from a name. -/

namespace Gridbase

namespace Identifier

theorem isBody_of_isHead {c : Char} (h : isHead c = true) : isBody c = true := by
  rw [isHead, Bool.or_eq_true] at h
  rw [isBody, Bool.or_eq_true, Char.isAlphanum, Bool.or_eq_true]
  rcases h with halpha | hmark
  · exact Or.inl (Or.inl halpha)
  · exact Or.inr hmark

/-- A valid name has a first character. -/
theorem toList_ne_nil {extra : List String} {name : String} (h : isValid extra name = true) :
    name.toList ≠ [] := by
  rw [isValid, Bool.and_eq_true, hasShape] at h
  intro hnil
  rw [hnil] at h
  exact nomatch h.1

/-- **ONLY BODY CHARACTERS** stand in a valid name.  Quotes, blanks and marks are none,
    so a name never ends the text around it. -/
theorem isBody_of_mem {extra : List String} {name : String} (h : isValid extra name = true)
    {c : Char} (hc : c ∈ name.toList) : isBody c = true := by
  rw [isValid, Bool.and_eq_true, hasShape] at h
  cases hname : name.toList with
  | nil =>
      rw [hname] at hc
      exact nomatch hc
  | cons x xs =>
      rw [hname] at h hc
      obtain ⟨⟨hhead, hbody⟩, -⟩ : (isHead x = true ∧ xs.all isBody = true) ∧ _ := by
        simpa using h.1
      rcases List.mem_cons.mp hc with rfl | hmem
      · exact isBody_of_isHead hhead
      · exact List.all_eq_true.mp hbody c hmem

/-- Any other character is missing from a valid name. -/
theorem not_mem_of_isValid {extra : List String} {name : String}
    (h : isValid extra name = true) {c : Char} (hc : isBody c = false) : c ∉ name.toList := by
  intro hmem
  rw [isBody_of_mem h hmem] at hc
  exact nomatch hc

/-- A valid name is no reserved word, whatever its case. -/
theorem upper_ne_of_isValid {extra : List String} {name word : String}
    (h : isValid extra name = true) (hword : word ∈ reservedWords) :
    Text.upper name.toList ≠ word.toList := by
  intro hupper
  rw [isValid, Bool.and_eq_true, Bool.not_eq_true', isReserved, List.any_eq_false] at h
  refine h.2 word (List.mem_append_left _ hword) (Text.sameName_iff.mpr ?_)
  rw [← hupper, Text.lower_upper]

/-- A body character is no blank. -/
theorem isBlank_of_isBody {c : Char} (h : isBody c = true) : Text.isBlank c = false := by
  -- the four classes of body characters by their code points, none of which is blank
  have hrange : (65 ≤ c.toNat ∧ c.toNat ≤ 90) ∨ (97 ≤ c.toNat ∧ c.toNat ≤ 122)
      ∨ (48 ≤ c.toNat ∧ c.toNat ≤ 57) ∨ c.toNat = 95 := by
    have halpha : c.isAlpha = (c.isUpper || c.isLower) := rfl
    have hupper : c.isUpper = decide (65 ≤ c.val ∧ c.val ≤ 90) := rfl
    have hlower : c.isLower = (decide (97 ≤ c.val) && decide (c.val ≤ 122)) := rfl
    rw [isBody, Bool.or_eq_true, Char.isAlphanum, Bool.or_eq_true, halpha, Bool.or_eq_true,
      hupper, hlower] at h
    rcases h with ((hu | hl) | hd) | hm
    · exact Or.inl (by simpa [UInt32.le_iff_toNat_le] using hu)
    · exact Or.inr (Or.inl (by simpa [UInt32.le_iff_toNat_le] using hl))
    · exact Or.inr (Or.inr (Or.inl (by simpa [Char.isDigit, UInt32.le_iff_toNat_le] using hd)))
    · exact Or.inr (Or.inr (Or.inr (by rw [of_decide_eq_true hm]; rfl)))
  simp [Text.isBlank]
  omega

/-- No blank stands in a valid name, so it is its own trim. -/
theorem solid_of_isValid {extra : List String} {name : String}
    (h : isValid extra name = true) : Text.Solid name.toList :=
  Text.solid_of_no_blank (toList_ne_nil h) fun _ hc => isBlank_of_isBody (isBody_of_mem h hc)

/-- A valid name is not blank. -/
theorem allBlank_of_isValid {extra : List String} {name : String}
    (h : isValid extra name = true) : Text.allBlank name = false := by
  rw [Text.allBlank]
  cases hname : name.toList with
  | nil => exact absurd hname (toList_ne_nil h)
  | cons c cs =>
      have hc : c ∈ name.toList := by rw [hname]; exact List.mem_cons_self ..
      rw [List.all_cons, isBlank_of_isBody (isBody_of_mem h hc), Bool.false_and]

/-! ## Case -/

theorem isHead_toLower (c : Char) : isHead c.toLower = isHead c := by
  have hletters : ∀ k < 91, 65 ≤ k → isHead (Char.ofNat k).toLower = isHead (Char.ofNat k) := by
    decide
  rcases Text.toLower_eq_or_letter c with hsame | ⟨k, hk, hlow, rfl⟩
  · rw [hsame]
  · exact hletters k hk hlow

theorem isBody_toLower (c : Char) : isBody c.toLower = isBody c := by
  have hletters : ∀ k < 91, 65 ≤ k → isBody (Char.ofNat k).toLower = isBody (Char.ofNat k) := by
    decide
  rcases Text.toLower_eq_or_letter c with hsame | ⟨k, hk, hlow, rfl⟩
  · rw [hsame]
  · exact hletters k hk hlow

/-- The shape of a name is that of its lower case. -/
theorem hasShape_eq (name : String) :
    hasShape name = match Text.lower name.toList with
      | [] => false
      | c :: cs => isHead c && cs.all isBody && cs.length < maxLength := by
  rw [hasShape, Text.lower]
  cases name.toList with
  | nil => rfl
  | cons c cs => simp [isHead_toLower, Function.comp_def, isBody_toLower]

/-- **CASE DOES NOT COUNT** for whether a name is valid.  Keywords are compared without
    their case, and so are letters. -/
theorem isValid_congr {extra : List String} {a b : String} (h : Text.sameName a b = true) :
    isValid extra a = isValid extra b := by
  have hreserved : isReserved extra a = isReserved extra b := by
    refine List.any_congr rfl fun word => ?_
    rw [Text.sameName_comm, Text.sameName_congr h, Text.sameName_comm]
  rw [isValid, isValid, hreserved, hasShape_eq, hasShape_eq, Text.sameName_iff.mp h]

end Identifier

namespace Dialect

/-- The mark before a quoted name. -/
def openingMark : Dialect → Char
  | .sqlServer => '['
  | _ => '"'

/-- The mark after a quoted name. -/
def closingMark : Dialect → Char
  | .sqlServer => ']'
  | _ => '"'

/-- A valid name is quoted as it is. -/
theorem toList_quote {d : Dialect} {name : String} (h : d.isValidName name = true) :
    (d.quote name).toList = d.openingMark :: (name.toList ++ [d.closingMark]) := by
  have hmark : Identifier.isBody d.closingMark = false := by cases d <;> rfl
  have hquote : d.quote name = Text.quoted d.openingMark d.closingMark name := by
    cases d <;> rfl
  rw [hquote, Text.quoted, String.toList_ofList, Text.enclosed,
    Text.doubleMark_of_not_mem (Identifier.not_mem_of_isValid h hmark), List.cons_append]

end Dialect

end Gridbase
