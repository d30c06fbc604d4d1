import Gridbase.Text.Digits
import Mathlib.Data.List.Infix

/-! # How texts begin

    A message is a fixed text with names in it, and the names may hold anything: they may look
    like the rest of the message.  What tells one message from another is its LEAD, the fixed text
    in front of the first name.

    Of two leads of one text one begins with the other (`Begins.compared`).  So if no lead in a
    list begins with another one, then a message belongs to one of them at most
    (`eq_of_leads`); and once the lead is known, the name can be told (`eq_of_between`). -/

namespace Gridbase.Text

/-- The text begins with a lead. -/
def Begins (s lead : String) : Prop := lead.toList <+: s.toList

instance decidableBegins (s lead : String) : Decidable (Begins s lead) :=
  inferInstanceAs (Decidable (_ <+: _))

theorem begins_self (s : String) : Begins s s := List.prefix_refl _

/-- Whatever follows the lead, the text begins with it. -/
theorem Begins.append {s lead : String} (h : Begins s lead) (rest : String) :
    Begins (s ++ rest) lead := by
  rw [Begins, String.toList_append]
  exact h.trans (List.prefix_append ..)

theorem begins_append (lead rest : String) : Begins (lead ++ rest) lead :=
  (begins_self lead).append rest

/-- A message with one name or two in it begins with the fixed text before them. -/
theorem begins_append₂ (lead a b : String) : Begins (lead ++ a ++ b) lead :=
  (begins_append lead a).append b

/-- **LEADS OF ONE TEXT** begin with each other. -/
theorem Begins.compared {s a b : String} (ha : Begins s a) (hb : Begins s b) :
    Begins a b ∨ Begins b a := List.prefix_or_prefix_of_prefix hb ha

/-- A text has one lead of each length. -/
theorem Begins.eq_of_length {s a b : String} (ha : Begins s a) (hb : Begins s b)
    (h : a.length = b.length) : a = b := by
  have hlength : b.toList.length = a.toList.length := by
    rw [String.length_toList, String.length_toList, h]
  rcases ha.compared hb with hbegins | hbegins
  · exact (String.toList_inj.mp (List.IsPrefix.eq_of_length hbegins hlength)).symm
  · exact String.toList_inj.mp (List.IsPrefix.eq_of_length hbegins hlength.symm)

/-- **A TEXT HAS ONE LEAD** of a list in which no lead begins with another. -/
theorem eq_of_leads {leads : List String}
    (hapart : ∀ i < leads.length, ∀ j < leads.length,
      Begins (leads.getD i "") (leads.getD j "") → i = j) {s : String} {i j : Nat}
    (hi : i < leads.length) (hj : j < leads.length) (ha : Begins s (leads.getD i ""))
    (hb : Begins s (leads.getD j "")) : i = j := by
  rcases ha.compared hb with hbegins | hbegins
  · exact hapart i hi j hj hbegins
  · exact (hapart j hj i hi hbegins).symm

/-- **WHAT STANDS BETWEEN** two fixed texts can be told. -/
theorem eq_of_between {lead tail a b : String} (h : lead ++ a ++ tail = lead ++ b ++ tail) :
    a = b := by
  have hlist := congrArg String.toList h
  rw [String.toList_append, String.toList_append, String.toList_append, String.toList_append]
    at hlist
  exact String.toList_inj.mp (List.append_cancel_left (List.append_cancel_right hlist))

/-- Fixed texts that end differently tell the texts before them apart. -/
theorem ne_of_ends {s t a b : String} (hab : ¬ a.toList <:+ b.toList)
    (hba : ¬ b.toList <:+ a.toList) : s ++ a ≠ t ++ b := by
  intro h
  have ha : a.toList <:+ (s ++ a).toList := by
    rw [String.toList_append]
    exact List.suffix_append ..
  have hb : b.toList <:+ (s ++ a).toList := by
    rw [h, String.toList_append]
    exact List.suffix_append ..
  rcases List.suffix_or_suffix_of_suffix ha hb with hsuffix | hsuffix
  · exact hab hsuffix
  · exact hba hsuffix

end Gridbase.Text
