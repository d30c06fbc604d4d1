import Gridbase.Proofs.Identifier
import Gridbase.Text.Quoted

/-! # Tokens — what a backend reads in a statement

    A WORD goes on as long as word characters follow.  A quote opens a text that the next
    quote of its kind closes, and two of them inside it stand for one.  Every other character
    is a MARK, and a token by itself.

    Reading is a run over the characters (`feed`) with the token that may still go on
    (`Pending`).  So a text is read in parts (`feed_append`), and a claim on all of its
    tokens is made part by part: `Reads ok A s B` says that a reader that is at `A` before `s`
    is at `B` after it, and has read only tokens that are `ok`.

    * `reads_iff`: from no pending token to none that is not `ok`, this is a claim on
      the tokens of `s`.
    * `Reads.append`, `reads_joinWith`: texts are put together. -/

namespace Gridbase.Text

/-! ## Tokens -/

/-- The quotes: single ones around literals, double ones around names. -/
inductive Quote
  | single
  | double
deriving DecidableEq

/-- A word, a text in quotes, or another character.  Blanks are marks like any other. -/
inductive Token
  | word (s : List Char)
  | quoted (quote : Quote) (text : List Char)
  | mark (c : Char)
deriving DecidableEq

/-- What has been read of a token that may still go on.  A text in quotes may go on
    behind a quote, if that is doubled. -/
inductive Pending
  | free
  | word (s : List Char)
  | inside (quote : Quote) (text : List Char)
  | closing (quote : Quote) (text : List Char)
deriving DecidableEq

/-- The characters of words. -/
def isWordChar (c : Char) : Bool := Identifier.isBody c || c = '$' || 128 ≤ c.toNat

/-- The character of a quote. -/
def Quote.char : Quote → Char
  | .single => '\''
  | .double => '"'

/-- The quote that a character is. -/
def quote? (c : Char) : Option Quote :=
  if c = '\'' then some .single else if c = '"' then some .double else none

theorem quote?_char (quote : Quote) : quote? quote.char = some quote := by
  cases quote <;> rfl

theorem isWordChar_char (quote : Quote) : isWordChar quote.char = false := by
  cases quote <;> rfl

namespace Pending

/-- The tokens that are complete where a text ends; none if a quote is open. -/
def close? : Pending → Option (List Token)
  | .free => some []
  | .word s => some [.word s]
  | .inside .. => none
  | .closing quote text => some [.quoted quote text]

/-- A character that begins a token after others: a word, a text in quotes, or a mark,
    which is complete at once. -/
def begin (complete : List Token) (c : Char) : List Token × Pending :=
  if isWordChar c then (complete, .word [c])
  else
    match quote? c with
    | some quote => (complete, .inside quote [])
    | none => (complete ++ [.mark c], .free)

/-- The tokens that a character completes, and what is pending after it. -/
def step : Pending → Char → List Token × Pending
  | .free, c => begin [] c
  | .word s, c => if isWordChar c then ([], .word (s ++ [c])) else begin [.word s] c
  | .inside quote text, c =>
      if c = quote.char then ([], .closing quote text) else ([], .inside quote (text ++ [c]))
  | .closing quote text, c =>
      if c = quote.char then ([], .inside quote (text ++ [c])) else begin [.quoted quote text] c

end Pending

/-- The tokens that a text completes, and what is pending after it.  Texts can so be
    read in parts. -/
def feed : Pending → List Char → List Token × Pending
  | p, [] => ([], p)
  | p, c :: cs => ((p.step c).1 ++ (feed (p.step c).2 cs).1, (feed (p.step c).2 cs).2)

/-- The tokens of a text; none if a quote is left open. -/
def tokens? (s : String) : Option (List Token) :=
  (feed .free s.toList).2.close?.map fun last => (feed .free s.toList).1 ++ last

/-- **READING GOES ON** where a part of the text ends.  What is pending after the first
    part is completed by the second. -/
theorem feed_append (a b : List Char) :
    ∀ p, feed p (a ++ b) = ((feed p a).1 ++ (feed (feed p a).2 b).1, (feed (feed p a).2 b).2) := by
  induction a with
  | nil => intro p; rfl
  | cons c a ih =>
      intro p
      rw [List.cons_append, feed, feed, ih, List.append_assoc]

/-! ## Single tokens -/

/-- A word goes on. -/
theorem feed_word {cs : List Char} (h : ∀ c ∈ cs, isWordChar c = true) :
    ∀ s, feed (.word s) cs = ([], .word (s ++ cs)) := by
  induction cs with
  | nil => intro s; rw [feed, List.append_nil]
  | cons c cs ih =>
      intro s
      obtain ⟨hc, hcs⟩ := List.forall_mem_cons.mp h
      rw [feed, Pending.step, if_pos hc, ih hcs, List.append_assoc]
      rfl

/-- A word begins. -/
theorem feed_free_word {cs : List Char} (hne : cs ≠ []) (h : ∀ c ∈ cs, isWordChar c = true) :
    feed .free cs = ([], .word cs) := by
  obtain ⟨c, rest, rfl⟩ := List.exists_cons_of_ne_nil hne
  obtain ⟨hc, hrest⟩ := List.forall_mem_cons.mp h
  rw [feed, Pending.step, Pending.begin, if_pos hc, feed_word hrest]
  rfl

/-- Word characters are one word. -/
theorem tokens?_word {s : String} (hne : s.toList ≠ [])
    (h : ∀ c ∈ s.toList, isWordChar c = true) : tokens? s = some [.word s.toList] := by
  rw [tokens?, feed_free_word hne h]
  rfl

/-- Doubled quotes are read as the text that they stand for. -/
theorem feed_doubleMark (quote : Quote) (s : List Char) :
    ∀ text, feed (.inside quote text) (doubleMark quote.char s)
      = ([], .inside quote (text ++ s)) := by
  induction s with
  | nil => intro text; rw [doubleMark, feed, List.append_nil]
  | cons c s ih =>
      intro text
      rw [doubleMark]
      by_cases hc : c = quote.char
      · rw [if_pos hc, feed, Pending.step, if_pos rfl, feed, Pending.step, if_pos rfl, ih, hc,
          List.append_assoc]
        rfl
      · rw [if_neg hc, feed, Pending.step, if_neg hc, ih, List.append_assoc]
        rfl

/-- A quoted text after a quote that opens it. -/
theorem feed_quoted (quote : Quote) (s : List Char) :
    feed (.inside quote []) (doubleMark quote.char s ++ [quote.char])
      = ([], .closing quote s) := by
  rw [feed_append, feed_doubleMark, feed, Pending.step, if_pos rfl]
  rfl

/-- A quote opens a text. -/
theorem begin_char (quote : Quote) (complete : List Token) :
    Pending.begin complete quote.char = (complete, .inside quote []) := by
  rw [Pending.begin, isWordChar_char, if_neg Bool.false_ne_true, quote?_char]

/-- **A QUOTED TEXT IS ONE TOKEN**, whatever it holds. -/
theorem tokens?_quoted (quote : Quote) (s : String) :
    tokens? (quoted quote.char quote.char s) = some [.quoted quote s.toList] := by
  rw [tokens?, quoted, String.toList_ofList, enclosed, List.cons_append, feed, Pending.step,
    begin_char, feed_quoted]
  rfl

/-- A semicolon inside quotes is no mark, and two quotes are one. -/
example : tokens? "a = 'b;''c';" = some [.word ['a'], .mark ' ', .mark '=', .mark ' ',
    .quoted .single ['b', ';', '\'', 'c'], .mark ';'] := by decide

/-- A quoted text right after a word. -/
theorem tokens?_word_quoted {w : String} (hne : w.toList ≠ [])
    (h : ∀ c ∈ w.toList, isWordChar c = true) (quote : Quote) (s : String) :
    tokens? (w ++ quoted quote.char quote.char s)
      = some [.word w.toList, .quoted quote s.toList] := by
  rw [tokens?, String.toList_append, quoted, String.toList_ofList, feed_append,
    feed_free_word hne h, enclosed, List.cons_append, feed, Pending.step, isWordChar_char,
    if_neg Bool.false_ne_true, begin_char, feed_quoted]
  rfl

/-! ## Marks -/

/-- A mark completes what is pending, and is a token by itself.  It is no character of a
    word and no quote, so only an open text in quotes could take it in. -/
theorem Pending.step_mark {c : Char} (hword : isWordChar c = false) (hquote : quote? c = none)
    {p : Pending} {last : List Token} (hclose : p.close? = some last) :
    p.step c = (last ++ [.mark c], .free) := by
  have hbegin (complete : List Token) : begin complete c = (complete ++ [.mark c], .free) := by
    rw [begin, hword, hquote]
    rfl
  -- a mark ends what is pending and stands alone, except inside quotes
  cases p with
  | free =>
      obtain rfl := Option.some.inj hclose
      exact hbegin []
  | word w =>
      obtain rfl := Option.some.inj hclose
      rw [step, hword, if_neg Bool.false_ne_true, hbegin]
  | inside quote text => exact nomatch hclose
  | closing quote text =>
      obtain rfl := Option.some.inj hclose
      have hother : c ≠ quote.char := by
        rintro rfl
        exact nomatch hquote.symm.trans (quote?_char quote)
      rw [step, if_neg hother, hbegin]

/-- **A LAST MARK** is the last token. -/
theorem tokens?_append_mark {s t : String} {c : Char} (ht : t.toList = [c])
    (hword : isWordChar c = false) (hquote : quote? c = none) {ts : List Token}
    (h : tokens? s = some ts) : tokens? (s ++ t) = some (ts ++ [.mark c]) := by
  obtain ⟨last, hclose, rfl⟩ := Option.map_eq_some_iff.mp h
  rw [tokens?, String.toList_append, ht, feed_append, feed, Pending.step_mark hword hquote hclose]
  simp [feed, Pending.close?]

/-- A mark among the tokens that a step completes is the character itself.  All other
    tokens are words or in quotes. -/
theorem Pending.mark_mem_step {p : Pending} {c m : Char} (h : .mark m ∈ (p.step c).1) : m = c := by
  -- a character that begins something new adds at most itself as a mark
  have hbegin : ∀ complete : List Token, .mark m ∉ complete →
      .mark m ∈ (Pending.begin complete c).1 → m = c := by
    intro complete hcomplete hm
    rw [begin] at hm
    split at hm
    · exact absurd hm hcomplete
    · split at hm
      · exact absurd hm hcomplete
      · rcases List.mem_append.mp hm with hm | hm
        · exact absurd hm hcomplete
        · exact Token.mark.inj (List.mem_singleton.mp hm)
  cases p with
  | free => exact hbegin [] List.not_mem_nil h
  | word s =>
      rw [step] at h
      split at h
      · exact absurd h List.not_mem_nil
      · exact hbegin _ (by simp) h
  | inside quote text =>
      rw [step] at h
      split at h <;> exact absurd h List.not_mem_nil
  | closing quote text =>
      rw [step] at h
      split at h
      · exact absurd h List.not_mem_nil
      · exact hbegin _ (by simp) h

/-- **NO MARK IS MADE UP**: each is a character of the text. -/
theorem mem_of_mark_mem_feed {m : Char} {cs : List Char} :
    ∀ {p : Pending}, .mark m ∈ (feed p cs).1 → m ∈ cs := by
  induction cs with
  | nil => intro p h; exact absurd h List.not_mem_nil
  | cons c cs ih =>
      intro p h
      rw [feed] at h
      rcases List.mem_append.mp h with hstep | hrest
      · exact List.mem_cons.mpr (Or.inl (Pending.mark_mem_step hstep))
      · exact List.mem_cons_of_mem _ (ih hrest)

/-- Without quotes nothing is opened.  So what is pending at the end is a word, or
    nothing. -/
theorem pending_feed {cs : List Char} (h : ∀ c ∈ cs, quote? c = none) :
    ∀ {p : Pending}, (p = .free ∨ ∃ s, p = .word s) →
      (feed p cs).2 = .free ∨ ∃ s, (feed p cs).2 = .word s := by
  induction cs with
  | nil => intro p hp; exact hp
  | cons c cs ih =>
      intro p hp
      obtain ⟨hc, hcs⟩ := List.forall_mem_cons.mp h
      have hbegin : ∀ complete, (Pending.begin complete c).2 = .free
          ∨ ∃ s, (Pending.begin complete c).2 = .word s := by
        intro complete
        rw [Pending.begin]
        split
        · exact Or.inr ⟨_, rfl⟩
        · rw [hc]
          exact Or.inl rfl
      -- without quotes there is nothing but words and what lies between them
      refine ih hcs ?_
      rcases hp with rfl | ⟨s, rfl⟩
      · exact hbegin []
      · rw [Pending.step]
        split
        · exact Or.inr ⟨_, rfl⟩
        · exact hbegin _

/-- **A TEXT WITHOUT QUOTES HAS TOKENS**, and its marks are among its characters.
    Nothing in it can be left open. -/
theorem exists_tokens {s : String} (h : ∀ c ∈ s.toList, quote? c = none) :
    ∃ ts, tokens? s = some ts ∧ ∀ m, .mark m ∈ ts → m ∈ s.toList := by
  rw [tokens?]
  rcases pending_feed h (Or.inl rfl) with hfree | ⟨w, hword⟩
  · rw [hfree]
    refine ⟨_, rfl, fun m hm => ?_⟩
    rcases List.mem_append.mp hm with hm | hm
    · exact mem_of_mark_mem_feed hm
    · exact absurd hm List.not_mem_nil
  · rw [hword]
    refine ⟨_, rfl, fun m hm => ?_⟩
    rcases List.mem_append.mp hm with hm | hm
    · exact mem_of_mark_mem_feed hm
    · exact absurd (List.mem_singleton.mp hm) nofun

/-! ## Reading part by part -/

/-- No token is pending. -/
def Free (p : Pending) : Prop := p = .free

/-- The text may end, and a token that is pending is `ok`.  This is what a part of a
    statement leaves behind. -/
def Ready (ok : Token → Prop) (p : Pending) : Prop :=
  ∃ last, p.close? = some last ∧ ∀ t ∈ last, ok t

/-- A reader that is at `A` before a text is at `B` after it, and the tokens that it has read
    are `ok`. -/
def Reads (ok : Token → Prop) (A : Pending → Prop) (s : String) (B : Pending → Prop) : Prop :=
  ∀ p, A p → (∀ t ∈ (feed p s.toList).1, ok t) ∧ B (feed p s.toList).2

section

variable {ok : Token → Prop} {A B C : Pending → Prop} {s t : String}

theorem Free.ready {p : Pending} (h : Free p) : Ready ok p := by
  rw [h]
  exact ⟨[], rfl, List.forall_mem_nil _⟩

theorem reads_empty : Reads ok A "" A := fun _ hp => ⟨List.forall_mem_nil _, hp⟩

theorem Reads.append (hs : Reads ok A s B) (ht : Reads ok B t C) : Reads ok A (s ++ t) C := by
  intro p hp
  obtain ⟨hsok, hsB⟩ := hs p hp
  obtain ⟨htok, htC⟩ := ht _ hsB
  rw [String.toList_append, feed_append]
  exact ⟨List.forall_mem_append.mpr ⟨hsok, htok⟩, htC⟩

/-- Where no token is pending, none is wrong. -/
theorem Reads.toReady (h : Reads ok A s Free) : Reads ok A s (Ready ok) := by
  intro p hp
  obtain ⟨hok, hfree⟩ := h p hp
  exact ⟨hok, hfree.ready⟩

theorem Reads.ofReady (h : Reads ok (Ready ok) s B) : Reads ok Free s B :=
  fun p hp => h p hp.ready

/-- **READING A WHOLE TEXT** is a claim on its tokens.  Parts are read from what was
    pending to what is; a whole text begins and ends with nothing. -/
theorem reads_iff : Reads ok Free s (Ready ok) ↔ ∃ ts, tokens? s = some ts ∧ ∀ t ∈ ts, ok t := by
  constructor
  · intro h
    obtain ⟨hok, last, hclose, hlast⟩ := h .free rfl
    rw [tokens?, hclose]
    exact ⟨_, rfl, List.forall_mem_append.mpr ⟨hok, hlast⟩⟩
  · rintro ⟨ts, hts, hok⟩ p rfl
    obtain ⟨last, hclose, rfl⟩ := Option.map_eq_some_iff.mp hts
    obtain ⟨hcomplete, hlast⟩ := List.forall_mem_append.mp hok
    exact ⟨hcomplete, last, hclose, hlast⟩

/-- The text begins with a mark. -/
def Breaks (s : String) : Prop :=
  s.toList.head?.any (fun c => !isWordChar c && (quote? c).isNone) = true

instance (s : String) : Decidable (Breaks s) := inferInstanceAs (Decidable (_ = true))

/-- **A MARK COMPLETES** what is pending before it. -/
theorem Reads.afterPending (hbreaks : Breaks s) (h : Reads ok Free s B) :
    Reads ok (Ready ok) s B := by
  obtain ⟨c, hc, hmark⟩ := (Option.any_eq_true ..).mp hbreaks
  obtain ⟨hword, hquote⟩ : isWordChar c = false ∧ quote? c = none := by simpa using hmark
  obtain ⟨cs, hs⟩ := List.head?_eq_some_iff.mp hc
  obtain ⟨hok, hB⟩ := h .free rfl
  rw [hs, feed, Pending.step_mark hword hquote rfl] at hok hB
  rintro p ⟨last, hclose, hlast⟩
  rw [hs, feed, Pending.step_mark hword hquote hclose, List.append_assoc]
  exact ⟨List.forall_mem_append.mpr ⟨hlast, hok⟩, hB⟩

/-- **JOINED TEXTS ARE READ** one after the other.  The separator completes the item
    before it, and leaves nothing pending for the next. -/
theorem reads_joinWith {sep : String} (hsep : Reads ok (Ready ok) sep Free) {items : List String}
    (h : ∀ item ∈ items, Reads ok Free item (Ready ok)) :
    Reads ok Free (joinWith sep items) (Ready ok) := by
  induction items with
  | nil => exact reads_empty.toReady
  | cons s rest ih =>
      obtain ⟨hs, hrest⟩ := List.forall_mem_cons.mp h
      cases rest with
      | nil => exact hs
      | cons t rest => exact (hs.append hsep).append (ih hrest)

end

end Gridbase.Text
