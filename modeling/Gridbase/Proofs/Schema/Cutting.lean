import Gridbase.Proofs.Text
import Gridbase.Schema.Reading

/-! # Cutting the body of a table definition

    The body stands between the first opening and the last closing parenthesis,
    and is cut at the commas of depth zero.

    A text is LEVEL when cutting passes over it: it has no comma of depth zero
    and leaves the depth as it was.  Level texts are closed under concatenation,
    so a definition is level because its words are, and a body of level
    definitions falls into exactly these definitions (`trim_splitTopLevel`). -/

namespace Gridbase.Schema

open Gridbase.Text

/-! ## The body -/

/-- The body of a text whose outer parentheses are known. -/
theorem between?_parens {pre inner post : List Char} (hpre : '(' ∉ pre) (hpost : ')' ∉ post) :
    between? (pre ++ '(' :: (inner ++ ')' :: post)) = some inner := by
  have hopen : ∀ c ∈ pre, (c != '(') = true := by
    intro c hc
    simpa using fun h : c = '(' => hpre (h ▸ hc)
  have hclose : ∀ c ∈ post.reverse, (c != ')') = true := by
    intro c hc
    simpa using fun h : c = ')' => hpost (h ▸ List.mem_reverse.mp hc)
  have hrev : (inner ++ ')' :: post).reverse = post.reverse ++ ')' :: inner.reverse := by
    simp
  rw [between?, List.dropWhile_append_of_pos hopen, List.dropWhile_cons_of_neg (by decide)]
  dsimp only
  rw [hrev, List.dropWhile_append_of_pos hclose, List.dropWhile_cons_of_neg (by decide)]
  show some inner.reverse.reverse = some inner
  rw [List.reverse_reverse]

/-! ## Level texts -/

/-- Puts a text before the first piece.  If there was none, the text is the only one. -/
def glue (cs : List Char) : List (List Char) → List (List Char)
  | [] => [cs]
  | piece :: rest => (cs ++ piece) :: rest

theorem glue_append (a b : List Char) (pieces : List (List Char)) :
    glue (a ++ b) pieces = glue a (glue b pieces) := by
  cases pieces with
  | nil => rfl
  | cons piece rest =>
      show ((a ++ b) ++ piece) :: rest = (a ++ (b ++ piece)) :: rest
      rw [List.append_assoc]

/-- Cutting passes over the text, whatever comes after it: no comma in it is a cut, and
    the depth is what it was. -/
def Level (cs : List Char) : Prop :=
  ∀ rest, splitTopLevel 0 (cs ++ rest) = glue cs (splitTopLevel 0 rest)

/-- One step of cutting, at a character that is no comma of depth zero. -/
theorem splitTopLevel_cons {depth : Int} {c : Char} (h : c ≠ ',' ∨ depth ≠ 0)
    (cs : List Char) :
    splitTopLevel depth (c :: cs) = glue [c] (splitTopLevel (depthAfter depth c) cs) := by
  have hcut : (c = ',' && depth = 0) = false := by
    rcases h with hc | hd
    · simp [hc]
    · simp [hd]
  rw [splitTopLevel, hcut]
  cases splitTopLevel (depthAfter depth c) cs <;> rfl

/-- A comma of depth zero is a cut. -/
theorem splitTopLevel_comma (cs : List Char) :
    splitTopLevel 0 (',' :: cs) = [] :: splitTopLevel 0 cs := rfl

/-- Cutting gives one piece at least. -/
theorem splitTopLevel_ne_nil (depth : Int) (cs : List Char) : splitTopLevel depth cs ≠ [] := by
  intro h
  cases cs with
  | nil => exact nomatch h
  | cons c cs =>
      rw [splitTopLevel] at h
      split at h
      · exact nomatch h
      · split at h <;> exact nomatch h

theorem level_nil : Level [] := by
  intro rest
  rw [List.nil_append]
  cases hrest : splitTopLevel 0 rest with
  | cons piece pieces => rfl
  | nil => exact absurd hrest (splitTopLevel_ne_nil 0 rest)

theorem level_append {a b : List Char} (ha : Level a) (hb : Level b) : Level (a ++ b) := by
  intro rest
  rw [List.append_assoc, ha, hb, glue_append]

/-- A character that is neither comma nor parenthesis. -/
def Plain (c : Char) : Prop := c ≠ ',' ∧ c ≠ '(' ∧ c ≠ ')'

instance (c : Char) : Decidable (Plain c) := inferInstanceAs (Decidable (_ ∧ _))

/-- A class without comma and parentheses has plain characters only. -/
theorem plain_of_class {p : Char → Bool}
    (h : p ',' = false ∧ p '(' = false ∧ p ')' = false) {c : Char} (hc : p c = true) :
    Plain c := by
  obtain ⟨hcomma, hopen, hclose⟩ := h
  refine ⟨?_, ?_, ?_⟩
  · rintro rfl
    exact Bool.false_ne_true (hcomma.symm.trans hc)
  · rintro rfl
    exact Bool.false_ne_true (hopen.symm.trans hc)
  · rintro rfl
    exact Bool.false_ne_true (hclose.symm.trans hc)

theorem depthAfter_plain {c : Char} (h : c ≠ '(' ∧ c ≠ ')') (depth : Int) :
    depthAfter depth c = depth := by
  rw [depthAfter, if_neg h.1, if_neg h.2]

/-- A text of plain characters. -/
def PlainText (cs : List Char) : Prop := ∀ c ∈ cs, Plain c

instance (cs : List Char) : Decidable (PlainText cs) := List.decidableBAll _ cs

theorem level_singleton {c : Char} (h : Plain c) : Level [c] := by
  intro rest
  rw [List.singleton_append, splitTopLevel_cons (Or.inl h.1), depthAfter_plain h.2]

/-- A text of plain characters is level. -/
theorem level_of_plain {cs : List Char} (h : PlainText cs) : Level cs := by
  induction cs with
  | nil => exact level_nil
  | cons c cs ih =>
      exact level_append (level_singleton (h c (List.mem_cons_self ..)))
        (ih fun d hd => h d (List.mem_cons_of_mem _ hd))

/-- A text without parentheses. -/
def Flat (cs : List Char) : Prop := ∀ c ∈ cs, c ≠ '(' ∧ c ≠ ')'

instance (cs : List Char) : Decidable (Flat cs) := List.decidableBAll _ cs

/-- Inside one pair of parentheses commas do not cut. -/
theorem splitTopLevel_inside {inner : List Char} (h : Flat inner)
    (rest : List Char) :
    splitTopLevel 1 (inner ++ ')' :: rest) = glue (inner ++ [')']) (splitTopLevel 0 rest) := by
  induction inner with
  | nil => exact splitTopLevel_cons (Or.inl (by decide)) rest
  | cons c inner ih =>
      rw [List.cons_append, splitTopLevel_cons (Or.inr (by decide)),
        depthAfter_plain (h c (List.mem_cons_self ..)),
        ih (fun d hd => h d (List.mem_cons_of_mem _ hd)), ← glue_append]
      rfl

/-- A pair of parentheses around a text without parentheses is level. -/
theorem level_parens {inner : List Char} (h : Flat inner) :
    Level ('(' :: (inner ++ [')'])) := by
  intro rest
  have hopen : splitTopLevel 0 ('(' :: (inner ++ ')' :: rest))
      = glue ['('] (splitTopLevel 1 (inner ++ ')' :: rest)) :=
    splitTopLevel_cons (Or.inl (by decide)) _
  have hcons : '(' :: (inner ++ [')']) ++ rest = '(' :: (inner ++ ')' :: rest) := by simp
  rw [hcons, hopen, splitTopLevel_inside h, ← glue_append]
  rfl

/-- The depth after a text that is nowhere cut.  There is none if a comma stands where
    the depth is zero. -/
def depthPast : Int → List Char → Option Int
  | depth, [] => some depth
  | depth, c :: cs =>
      if c = ',' && depth = 0 then none else depthPast (depthAfter depth c) cs

/-- A text that is nowhere cut becomes the beginning of the first piece. -/
theorem splitTopLevel_append {cs : List Char} :
    ∀ {depth after : Int}, depthPast depth cs = some after →
      ∀ rest, splitTopLevel depth (cs ++ rest) = glue cs (splitTopLevel after rest) := by
  -- induction on the first part, which no cut falls into
  induction cs with
  | nil =>
      intro depth after h rest
      cases h
      show splitTopLevel depth rest = glue [] (splitTopLevel depth rest)
      cases hrest : splitTopLevel depth rest with
      | cons piece pieces => rfl
      | nil => exact absurd hrest (splitTopLevel_ne_nil depth rest)
  | cons c cs ih =>
      intro depth after h rest
      rw [depthPast] at h
      by_cases hcut : (c = ',' && depth = 0) = true
      · rw [if_pos hcut] at h
        exact nomatch h
      · rw [if_neg hcut] at h
        have hstep : c ≠ ',' ∨ depth ≠ 0 := by
          by_cases hc : c = ','
          · exact Or.inr fun hd => hcut (by simp [hc, hd])
          · exact Or.inl hc
        rw [List.cons_append, splitTopLevel_cons hstep, ih h, ← glue_append]
        rfl

/-- A text that is nowhere cut and closes what it opens is level. -/
theorem level_of_depthPast {cs : List Char} (h : depthPast 0 cs = some 0) : Level cs :=
  splitTopLevel_append h

theorem depthPast_append (a b : List Char) :
    ∀ depth, depthPast depth (a ++ b) = (depthPast depth a).bind fun after => depthPast after b := by
  induction a with
  | nil => intro depth; rfl
  | cons c a ih =>
      intro depth
      rw [List.cons_append, depthPast, depthPast]
      split
      · rfl
      · exact ih _

/-- Quotes open and cut nothing, however many there are. -/
theorem depthPast_enclosed (s : List Char) (depth : Int) :
    depthPast depth (enclosed '\'' '\'' s) = depthPast depth s := by
  have hquote : ∀ depth cs, depthPast depth ('\'' :: cs) = depthPast depth cs := fun _ _ => rfl
  have hdouble : ∀ depth, depthPast depth (doubleMark '\'' s) = depthPast depth s := by
    induction s with
    | nil => intro depth; rfl
    | cons c s ih =>
        intro depth
        rw [doubleMark]
        by_cases hc : c = '\''
        · rw [if_pos hc, hquote, hquote, hc, hquote, ih]
        · rw [if_neg hc, depthPast, depthPast, ih]
  rw [enclosed, List.cons_append, hquote, depthPast_append, hdouble]
  cases depthPast depth s <;> rfl

/-- Blanks are level. -/
theorem level_of_blank {cs : List Char} (h : Blank cs) : Level cs :=
  level_of_plain fun c hc => plain_of_class (by decide) (h c hc)

/-- Words joined with a level separator are level if every word is. -/
theorem level_intercalate {sep : List Char} (hsep : Level sep) :
    ∀ {words : List (List Char)}, (∀ w ∈ words, Level w) → Level (sep.intercalate words) := by
  intro words
  induction words with
  | nil => intro _; exact level_nil
  | cons w words ih =>
      intro h
      have hw : Level w := h w (List.mem_cons_self ..)
      have hrest := ih fun v hv => h v (List.mem_cons_of_mem _ hv)
      cases words with
      | nil => rw [List.intercalate_singleton]; exact hw
      | cons v words =>
          rw [List.intercalate_cons_cons]
          exact level_append (level_append hw hsep) hrest

/-! ## Bodies -/

/-- **A BODY FALLS INTO ITS DEFINITIONS**: level and solid texts, separated by
    commas and padded with blanks, are the trimmed pieces of their body. -/
theorem trim_splitTopLevel {gap pad tail : List Char} (hgap : Blank gap) (hpad : Blank pad)
    (htail : Blank tail) :
    ∀ {cores : List (List Char)} {lead : List Char}, Blank lead → cores ≠ [] →
      (∀ core ∈ cores, Level core ∧ Solid core) →
      (splitTopLevel 0
        (lead ++ (',' :: gap).intercalate (cores.map (pad ++ ·)) ++ tail)).map trim = cores := by
  intro cores
  -- `lead` is general: it is the break before the first text, then the `gap` after a comma
  induction cores with
  | nil => intro _ _ hne; exact absurd rfl hne
  | cons core cores ih =>
      intro lead hlead _ h
      obtain ⟨hlevel, hsolid⟩ := h core (List.mem_cons_self ..)
      have hfront : Blank (lead ++ pad) := by
        intro c hc
        rcases List.mem_append.mp hc with hl | hp
        · exact hlead c hl
        · exact hpad c hp
      have hfirst : Level (lead ++ pad ++ core) := level_append (level_of_blank hfront) hlevel
      cases cores with
      | nil =>
          have htext : lead ++ (',' :: gap).intercalate (List.map (pad ++ ·) [core]) ++ tail
              = (lead ++ pad ++ core ++ tail) ++ [] := by
            simp [List.intercalate_singleton]
          rw [htext, level_append hfirst (level_of_blank htail) []]
          show [trim ((lead ++ pad ++ core ++ tail) ++ [])] = [core]
          rw [List.append_nil, trim_padded hfront htail hsolid]
      | cons next cores =>
          have htext : lead ++ (',' :: gap).intercalate
                (List.map (pad ++ ·) (core :: next :: cores)) ++ tail
              = (lead ++ pad ++ core) ++ ',' ::
                (gap ++ (',' :: gap).intercalate (List.map (pad ++ ·) (next :: cores)) ++ tail) := by
            simp [List.intercalate_cons_cons]
          have hcore : trim (lead ++ pad ++ core ++ []) = core :=
            trim_padded hfront blank_nil hsolid
          rw [htext, hfirst, splitTopLevel_comma]
          show trim (lead ++ pad ++ core ++ []) :: _ = _
          rw [hcore, ih hgap (by simp) fun v hv => h v (List.mem_cons_of_mem _ hv)]

end Gridbase.Schema
